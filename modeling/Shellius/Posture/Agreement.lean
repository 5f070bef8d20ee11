import Shellius.Posture.Views

/-!
# Agreement of the views

The sections of the list are a partition of what the filters let through, and a group counts what
the list shows with the values of the group added to the filters, unless a port has more digits
than the filter reads.  The counts of the summary leave two filters out, and the export asks other
questions than the list: what has to hold of the findings for all four to agree is `Uniform`, and
`agree_iff` says that it is just that.
-/

namespace Shellius.Posture.Views

open Lib Alerts

section

variable {rt : Runtime} {db : Fleet} {orgId : Id} {scope : Scope} {now : Millis} {q : Filters}
  {p : Part} {f r : FindingRow} {d : Dim}

@[simp] theorem mem_selected {c : FindingRow → Bool} :
    f ∈ selected db c ↔ f ∈ db.findings ∧ c f = true := List.mem_filter

theorem nodup_rows (db : Fleet) : db.findings.rows.Nodup := db.findings.nodup.of_map _

theorem nodup_selected (c : FindingRow → Bool) : (selected db c).Nodup := (nodup_rows db).filter c

/-! ## Groups -/

theorem org_of_rest (h : rest rt db orgId scope now q.toSummaryQuery p f = true) :
    f.orgId = orgId := by
  simp only [rest, Bool.and_eq_true, beq_iff_eq] at h
  exact h.1.1.1.1

theorem findingsListAnd_withValue (hf : f ∈ db.findings) (hr : r ∈ db.findings)
    (hlist : findingsListAnd rt db orgId scope now q p r = true)
    (hport : d = .port → ∀ n ∈ r.port, n < 100000) :
    findingsListAnd rt db orgId scope now (q.withValue (d, rowValue rt db orgId d r)) p f = true ↔
      findingsListAnd rt db orgId scope now q p f = true ∧
        rowValue rt db orgId d f = rowValue rt db orgId d r := by
  obtain ⟨hrest, hadmits⟩ := (findingsListAnd_iff hr).mp hlist
  have hrorg := org_of_rest hrest
  rw [findingsListAnd_iff hf, findingsListAnd_iff hf, rest_withValue]
  constructor
  · rintro ⟨hfrest, h⟩
    have hforg := org_of_rest hfrest
    have hvalue : rowValue rt db orgId d f = rowValue rt db orgId d r := by
      have hself := h d
      rw [admits_withValue_self hf hr hforg hrorg hport] at hself
      exact of_decide_eq_true hself
    refine ⟨⟨hfrest, fun e ↦ ?_⟩, hvalue⟩
    by_cases he : e = d
    · subst he
      exact (admits_congr hf hr hforg hrorg hvalue).trans (hadmits e)
    · exact (admits_withValue_of_ne he _).symm.trans (h e)
  · rintro ⟨⟨hfrest, h⟩, hvalue⟩
    have hforg := org_of_rest hfrest
    refine ⟨hfrest, fun e ↦ ?_⟩
    by_cases he : e = d
    · subst he
      rw [admits_withValue_self hf hr hforg hrorg hport]
      exact decide_eq_true hvalue
    · exact (admits_withValue_of_ne he _).trans (h e)

theorem findingsListAnd_withValues {path : List (Dim × String)} (hf : f ∈ db.findings)
    (hr : r ∈ db.findings) (hlist : findingsListAnd rt db orgId scope now q p r = true)
    (hpath : ∀ s ∈ path, rowValue rt db orgId s.1 r = s.2)
    (hport : ∀ s ∈ path, s.1 = .port → ∀ n ∈ r.port, n < 100000) :
    findingsListAnd rt db orgId scope now (path.foldl Filters.withValue q) p f = true ↔
      findingsListAnd rt db orgId scope now q p f = true ∧
        ∀ s ∈ path, rowValue rt db orgId s.1 f = s.2 := by
  induction path generalizing q with
  | nil => simp
  | cons s path ih =>
    obtain ⟨d, x⟩ := s
    obtain ⟨hx, hbelow⟩ := List.forall_mem_cons.mp hpath
    obtain ⟨hd, hports⟩ := List.forall_mem_cons.mp hport
    dsimp only at hx hd
    subst hx
    have hstep : ∀ f ∈ db.findings, _ := fun f hf ↦ findingsListAnd_withValue hf hr hlist hd
    rw [List.foldl_cons, ih ((hstep r hr).mpr ⟨hlist, rfl⟩) hbelow hports, hstep f hf,
      List.forall_mem_cons, and_assoc]

theorem follows_iff {keys : List Dim} {path : List (Dim × String)}
    (hpath : ∀ s ∈ path, s.1 ∈ keys) :
    (findingGrouping rt db orgId).follows path (columns keys f) = true ↔
      ∀ s ∈ path, rowValue rt db orgId s.1 f = s.2 := by
  rw [Grouping.follows, List.all_eq_true]
  refine forall₂_congr fun s hs ↦ ?_
  rw [decide_eq_true_iff, value_columns (hpath s hs)]

theorem count_eq_total {groupBy : List String} {path : List (Dim × String)} {n : Node Dim String}
    (hshort : ∀ f ∈ db.findings, findingsListAnd rt db orgId scope now q p f = true →
      ∀ m ∈ f.port, m < 100000)
    (h : Reaches (getFindingGroups rt db orgId scope now q p groupBy) path n) :
    n.count =
      (listFindings rt db orgId scope now (path.foldl Filters.withValue q) p none none).total := by
  have hkeys := Grouping.mem_of_reaches h
  obtain ⟨c, hc, hfollows⟩ := Grouping.exists_of_reaches h
  obtain ⟨r, hr, hcolumns⟩ := List.mem_map.mp (mem_tally.mp hc).1
  obtain ⟨hr, hlist⟩ := mem_selected.mp hr
  rw [← hcolumns, follows_iff hkeys] at hfollows
  rw [Grouping.count_of_reaches h, sum_tally, List.countP_map, List.countP_eq_length_filter,
    selected, List.filter_filter]
  refine congrArg List.length (List.filter_congr fun f hf ↦ ?_)
  rw [Bool.eq_iff_iff, Bool.and_eq_true, and_comm, Function.comp_apply, follows_iff hkeys,
    findingsListAnd_withValues hf hr hlist hfollows fun _ _ _ ↦ hshort r hr hlist]

/-! ## Sections -/

def sections : List Section := [.open, .expected, .acknowledged, .muted, .resolved]

def sectionOf (now : Millis) (f : FindingRow) : Section :=
  if f.resolvedAt.isSome then .resolved
  else if f.mutedUntil.any (now < ·) then .muted
  else if f.code = .EXPECTED_PUBLIC then .expected
  else if f.acknowledgedAt.isSome then .acknowledged
  else .open

theorem mem_sections (s : Section) : s ∈ sections := by
  cases s <;> decide

theorem isLive_iff : isLive now f = true ↔
    f.resolvedAt.isSome = false ∧ f.mutedUntil.any (now < ·) = false := by
  unfold isLive
  cases f.resolvedAt <;> cases f.mutedUntil <;> simp

theorem inSection_iff {s : Section} : inSection now s f = true ↔ sectionOf now f = s := by
  have hmuted : isMuted now f = true ↔
      f.resolvedAt.isSome = false ∧ f.mutedUntil.any (now < ·) = true := by
    unfold isMuted
    cases f.resolvedAt <;> simp
  have hnone : f.acknowledgedAt.isNone = true ↔ f.acknowledgedAt.isSome = false := by
    cases f.acknowledgedAt <;> simp
  unfold sectionOf
  cases s <;> simp only [inSection, Bool.and_eq_true, isLive_iff, hmuted, hnone, bne_iff_ne,
    beq_iff_eq]
  all_goals split_ifs <;> simp_all

variable (db now) in
/-- The sections of the list are a partition of what the list has without them. -/
theorem sections_partition (c : FindingRow → Bool) :
    (sections.flatMap fun s ↦ selected db fun f ↦ c f && inSection now s f).Perm (selected db c) := by
  have hsame : ∀ s ∈ sections, selected db (fun f ↦ c f && inSection now s f) =
      (selected db c).filter fun f ↦ sectionOf now f = s := by
    intro s _
    rw [selected, selected, List.filter_filter]
    refine List.filter_congr fun f _ ↦ ?_
    rw [Bool.and_comm, Bool.eq_iff_iff, Bool.and_eq_true, Bool.and_eq_true, inSection_iff,
      decide_eq_true_iff]
  rw [List.flatMap_congr hsame]
  exact flatMap_filter_perm (sectionOf now) (by decide) fun f _ ↦ mem_sections _

/-! ## Counts -/

theorem countOf_congr {c c' : FindingRow → Bool} (h : ∀ f ∈ db.findings, c f = c' f) :
    countOf db c = countOf db c' := congrArg List.length (List.filter_congr h)

variable (db) in
theorem sum_countOf {κ : Type*} [DecidableEq κ] (key : FindingRow → κ) (classes : List κ)
    (hnodup : classes.Nodup) {c : FindingRow → Bool} (h : ∀ f, c f = true → key f ∈ classes) :
    (classes.map fun k ↦ countOf db fun f ↦ c f && decide (key f = k)).sum = countOf db c := by
  have hperm := flatMap_filter_perm key hnodup (l := selected db c) fun f hf ↦
    h f (mem_selected.mp hf).2
  rw [countOf, ← hperm.length_eq, List.length_flatMap]
  refine congrArg List.sum (List.map_congr_left fun k _ ↦ ?_)
  rw [countOf, selected, selected, List.filter_filter]
  exact congrArg List.length (List.filter_congr fun f _ ↦ Bool.and_comm _ _)

theorem mem_severities (s : Severity) : s ∈ severities := by
  cases s <;> decide

variable (db) in
theorem sum_severities (c : FindingRow → Bool) :
    (countOf db fun f ↦ c f && f.severity == .CRITICAL) +
      (countOf db fun f ↦ c f && f.severity == .HIGH) +
      (countOf db fun f ↦ c f && f.severity == .MEDIUM) +
      (countOf db fun f ↦ c f && f.severity == .LOW) +
      (countOf db fun f ↦ c f && f.severity == .INFO) = countOf db c := by
  have hsum := sum_countOf db (fun f ↦ f.severity) severities (by decide) (c := c)
    fun f _ ↦ mem_severities _
  simp only [severities, List.map_cons, List.map_nil, List.sum_cons, List.sum_nil] at hsum
  refine Eq.trans ?_ hsum
  simp only [beq_eq_decide, Nat.add_zero, Nat.add_assoc]

variable (db now) in
theorem sum_live (c : FindingRow → Bool) :
    (countOf db fun f ↦ c f && inSection now .open f) +
      (countOf db fun f ↦ c f && inSection now .expected f) +
      (countOf db fun f ↦ c f && inSection now .acknowledged f) =
      countOf db fun f ↦ c f && isLive now f := by
  have hlive : ∀ f, (c f && isLive now f) = true →
      sectionOf now f ∈ [Section.open, .expected, .acknowledged] := by
    intro f h
    obtain ⟨hresolved, hmuted⟩ := isLive_iff.mp (Bool.and_eq_true_iff.mp h).2
    unfold sectionOf
    rw [hresolved, hmuted]
    split_ifs <;> simp_all
  have hin : ∀ s ∈ [Section.open, .expected, .acknowledged], ∀ f,
      (c f && isLive now f && decide (sectionOf now f = s)) = (c f && inSection now s f) := by
    intro s hs f
    rw [Bool.and_assoc, Bool.eq_iff_iff, Bool.and_eq_true, Bool.and_eq_true, Bool.and_eq_true,
      decide_eq_true_iff, ← inSection_iff]
    refine and_congr_right fun _ ↦ ⟨fun h ↦ h.2, fun h ↦ ⟨?_, h⟩⟩
    simp only [List.mem_cons, List.not_mem_nil, or_false] at hs
    rcases hs with rfl | rfl | rfl <;> simp only [inSection, Bool.and_eq_true] at h
    · exact h.1.1
    · exact h.1
    · exact h.1.1
  refine Eq.trans ?_ (sum_countOf db (sectionOf now) _ (by decide) hlive)
  simp only [List.map_cons, List.map_nil, List.sum_cons, List.sum_nil, Nat.add_zero]
  rw [countOf_congr fun f _ ↦ hin .open (by decide) f,
    countOf_congr fun f _ ↦ hin .expected (by decide) f,
    countOf_congr fun f _ ↦ hin .acknowledged (by decide) f, Nat.add_assoc]

def SectionCounts.get (c : SectionCounts) : Section → Nat
  | .open => c.open
  | .expected => c.expected
  | .acknowledged => c.acknowledged
  | .muted => c.muted
  | .resolved => c.resolved

theorem get_sections (s : Section) :
    (getSummary rt db orgId scope now q.toSummaryQuery).sections.get s =
      countOf db fun f ↦ buildFindingsWhere rt db orgId scope { q.toSummaryQuery with } f &&
        inSection now s f := by
  set base := buildFindingsWhere rt db orgId scope { q.toSummaryQuery with } with hbase
  have hack : (countOf db fun f ↦
      base f && isLive now f && f.acknowledgedAt.isSome && f.code != .EXPECTED_PUBLIC) =
      countOf db fun f ↦ base f && inSection now .acknowledged f :=
    countOf_congr fun f _ ↦ by simp only [inSection, Bool.and_assoc]
  have hexpected : (countOf db fun f ↦ base f && isLive now f && f.code == .EXPECTED_PUBLIC) =
      countOf db fun f ↦ base f && inSection now .expected f :=
    countOf_congr fun f _ ↦ by simp only [inSection, Bool.and_assoc]
  cases s with
  | «open» =>
    have hsum := sum_live db now base
    have htotal := sum_severities db fun f ↦ base f && isLive now f
    change _ + _ + _ + _ + _ - _ - _ = _
    rw [htotal, hack, hexpected, ← hsum]
    omega
  | expected => exact hexpected
  | acknowledged => exact hack
  | muted => rfl
  | resolved => rfl

/-- The filters that the summary does not know. -/
def narrows (q : Filters) (f : FindingRow) : Bool :=
  findingsPortWhere q.port f && q.severity.all fun severity ↦ f.severity.text == severity.text

theorem findingsListAnd_eq :
    findingsListAnd rt db orgId scope now q p f =
      (buildFindingsWhere rt db orgId scope { q.toSummaryQuery with } f && narrows q f &&
        inPart now p f) := by
  have hport : findingsPortWhere none f = true := rfl
  simp only [findingsListAnd, buildFindingsWhere, narrows, upper_text, hport, Bool.and_true]
  ac_rfl

theorem countOf_and_eq {c e : FindingRow → Bool} :
    countOf db c = countOf db (fun f ↦ c f && e f) ↔
      ∀ f ∈ db.findings, c f = true → e f = true := by
  have hfilter : selected db (fun f ↦ c f && e f) = (selected db c).filter e := by
    rw [selected, selected, List.filter_filter]
    exact List.filter_congr fun f _ ↦ Bool.and_comm _ _
  rw [countOf, countOf, hfilter, eq_comm, List.length_filter_eq_length_iff]
  exact ⟨fun h f hf hc ↦ h f (mem_selected.mpr ⟨hf, hc⟩), fun h f hf ↦
    h f (mem_selected.mp hf).1 (mem_selected.mp hf).2⟩

theorem get_sections_eq_total_iff :
    (∀ s, (getSummary rt db orgId scope now q.toSummaryQuery).sections.get s =
      (listFindings rt db orgId scope now q ⟨some s, none⟩ none none).total) ↔
      ∀ f ∈ db.findings, buildFindingsWhere rt db orgId scope { q.toSummaryQuery with } f = true →
        narrows q f = true := by
  have htotal : ∀ s, (listFindings rt db orgId scope now q ⟨some s, none⟩ none none).total =
      countOf db fun f ↦ buildFindingsWhere rt db orgId scope { q.toSummaryQuery with } f &&
        inSection now s f && narrows q f := by
    intro s
    refine countOf_congr fun f _ ↦ ?_
    rw [findingsListAnd_eq, Bool.and_assoc, Bool.and_assoc, Bool.and_comm (narrows q f)]
    rfl
  constructor
  · intro h f hf hbase
    have hs := h (sectionOf now f)
    rw [get_sections, htotal, countOf_and_eq] at hs
    refine hs f hf ?_
    rw [hbase, Bool.true_and]
    exact inSection_iff.mpr rfl
  · intro h s
    rw [get_sections, htotal, countOf_and_eq]
    exact fun f hf hc ↦ h f hf (Bool.and_eq_true_iff.mp hc).1

/-! ## Pages -/

variable (rt db orgId scope now) in
def allPages (q : Filters) (p : Part) (limit : Option Int) : List FindingRow :=
  let first := listFindings rt db orgId scope now q p none limit
  (List.range (pageCount first.total first.limit)).flatMap fun i : Nat ↦
    (listFindings rt db orgId scope now q p (some ((i + 1 : Nat) : Int)) limit).findings

theorem allPages_eq (limit : Option Int) :
    allPages rt db orgId scope now q p limit =
      rt.orderBy (fun a b ↦ b.lastSeenAt ≤ a.lastSeenAt)
        (selected db (findingsListAnd rt db orgId scope now q p)) := by
  have hpos : 0 < (listFindings rt db orgId scope now q p none limit).limit := by
    simp only [listFindings]
    omega
  have hpage : ∀ i : Nat,
      (listFindings rt db orgId scope now q p (some ((i + 1 : Nat) : Int)) limit).findings =
        pageOf (listFindings rt db orgId scope now q p none limit).limit (i + 1)
          (rt.orderBy (fun a b ↦ b.lastSeenAt ≤ a.lastSeenAt)
            (selected db (findingsListAnd rt db orgId scope now q p))) := by
    intro i
    have hnumber : (max (((some ((i + 1 : Nat) : Int)).filter (· ≠ 0)).getD 1) 1).toNat = i + 1 := by
      have hne : (some ((i + 1 : Nat) : Int)).filter (· ≠ 0) = some (((i + 1 : Nat) : Int)) :=
        Option.filter_some_pos (decide_eq_true (by omega))
      rw [hne, Option.getD_some]
      omega
    simp only [listFindings, hnumber]
  unfold allPages
  simp only [hpage]
  refine flatMap_pages ?_
  rw [(rt.orderBy_perm _ _).length_eq]
  exact le_pageCount_mul hpos

/-! ## The export -/

theorem findingsListAnd_iff_export {status : Option Status} {s : FleetServer}
    (hs : db.servers.find f.serverId = some s) :
    findingsListAnd rt db orgId scope now q ⟨none, status⟩ f = true ↔
      exportWhere rt db orgId scope now q [] none f = true ∧ s.isActive = true ∧
        findingsPortWhere q.port f = true ∧ inPart now ⟨none, status⟩ f = true := by
  have hscope : relationScopeWhere db scope f = inScope scope s.toServer := by
    cases scope with
    | unscoped => rfl
    | customers ids => exact related_of_find hs _
  have hserver : ofServers q.serverId [] f = given q.serverId (f.serverId == ·) := by
    unfold ofServers given
    cases truthy q.serverId with
    | none => rfl
    | some id => rfl
  have hrelated : (if (truthy q.environment).isSome ∨ (truthy q.customerId).isSome then
      related db f fun s ↦
        given q.environment (s.environment.key == ·) && given q.customerId (s.customerId == ·)
      else true) =
      (given q.environment (s.environment.key == ·) && given q.customerId (s.customerId == ·)) := by
    rw [related_of_find hs]
    split
    · rfl
    · rename_i hnone
      rw [not_or, Option.not_isSome_iff_eq_none, Option.not_isSome_iff_eq_none] at hnone
      simp only [given, hnone, Option.all_none, Bool.and_true]
  unfold findingsListAnd buildFindingsWhere exportWhere
  rw [hscope, hserver, hrelated, related_of_find hs]
  simp only [upper_text, inExport, Bool.and_eq_true, and_true]
  constructor
  · rintro ⟨⟨⟨⟨⟨⟨⟨⟨horg, ⟨⟨hin, hactive⟩, hcustomer⟩, henvironment⟩, hid⟩, hcode⟩, hport⟩, hseen⟩,
      hsearch⟩, hseverity⟩, hpart⟩
    exact ⟨⟨⟨⟨⟨⟨⟨⟨horg, hin⟩, hid⟩, hseverity⟩, hcode⟩, henvironment, hcustomer⟩, hseen⟩, hsearch⟩,
      hactive, hport, hpart⟩
  · rintro ⟨⟨⟨⟨⟨⟨⟨⟨horg, hin⟩, hid⟩, hseverity⟩, hcode⟩, henvironment, hcustomer⟩, hseen⟩, hsearch⟩,
      hactive, hport, hpart⟩
    exact ⟨⟨⟨⟨⟨⟨⟨⟨horg, ⟨⟨hin, hactive⟩, hcustomer⟩, henvironment⟩, hid⟩, hcode⟩, hport⟩, hseen⟩,
      hsearch⟩, hseverity⟩, hpart⟩

theorem exportWhere_eq (serverIds : List Id) (status : Option Status) :
    exportWhere rt db orgId scope now q serverIds status f =
      (exportWhere rt db orgId scope now q serverIds none f && inExport now status f) := by
  simp only [exportWhere, inExport, Bool.and_true]

theorem inPart_iff_inExport {status : Option Status} :
    inPart now ⟨none, status⟩ f = true ↔ inExport now status f = true ∨
      status = some .open ∧ f.resolvedAt.isNone = true ∧ f.mutedUntil = some now := by
  rcases status with _ | _ | _ | _
  · exact ⟨fun _ ↦ .inl rfl, fun _ ↦ rfl⟩
  · simp only [inPart, inStatus, inExport, isLive, Bool.and_eq_true, true_and]
    cases f.mutedUntil with
    | none => simp
    | some t =>
      simp only [Option.all_some, decide_eq_true_iff, Option.some.injEq, ← and_or_left]
      exact and_congr_right fun _ ↦ Int.le_iff_lt_or_eq
  · simp [inPart, inStatus, inExport]
  · simp [inPart, inStatus, inExport]

variable (db) in
def onActiveServer (f : FindingRow) : Bool := related db f (·.isActive)

variable (rt db orgId scope now) in
/-- The export of a status has what the list has: nothing more as far as it goes, and nothing less
if it goes to the end. -/
def ExportUniform (q : Filters) (status : Option Status) : Prop :=
  (∀ f ∈ (exported rt db orgId scope now q [] status).take MAX_ROWS,
      onActiveServer db f = true ∧ findingsPortWhere q.port f = true) ∧
    ((exported rt db orgId scope now q [] status).length < MAX_ROWS → status = some .open →
      ∀ f ∈ db.findings, findingsListAnd rt db orgId scope now q ⟨none, status⟩ f = true →
        f.mutedUntil ≠ some now)

theorem mem_exported {status : Option Status} : f ∈ exported rt db orgId scope now q [] status ↔
    f ∈ db.findings ∧ exportWhere rt db orgId scope now q [] status f = true :=
  (rt.orderBy_perm _ _).mem_iff.trans mem_selected

theorem mem_allPages {limit : Option Int} : f ∈ allPages rt db orgId scope now q p limit ↔
    f ∈ db.findings ∧ findingsListAnd rt db orgId scope now q p f = true := by
  rw [allPages_eq]
  exact (rt.orderBy_perm _ _).mem_iff.trans mem_selected

theorem listed_iff_of_exportWhere {status : Option Status} (hf : f ∈ db.findings)
    (h : exportWhere rt db orgId scope now q [] status f = true) :
    findingsListAnd rt db orgId scope now q ⟨none, status⟩ f = true ↔
      onActiveServer db f = true ∧ findingsPortWhere q.port f = true := by
  obtain ⟨s, -, hs, -⟩ := exists_server hf
  rw [exportWhere_eq, Bool.and_eq_true] at h
  rw [findingsListAnd_iff_export hs, onActiveServer, related_of_find hs]
  exact ⟨fun hl ↦ ⟨hl.2.1, hl.2.2.1⟩, fun hl ↦
    ⟨h.1, hl.1, hl.2, inPart_iff_inExport.mpr (.inl h.2)⟩⟩

theorem exportWhere_iff_of_listed {status : Option Status} (hf : f ∈ db.findings)
    (h : findingsListAnd rt db orgId scope now q ⟨none, status⟩ f = true) :
    exportWhere rt db orgId scope now q [] status f = true ↔
      (status = some .open → f.mutedUntil ≠ some now) := by
  obtain ⟨s, -, hs, -⟩ := exists_server hf
  obtain ⟨hexport, -, -, hpart⟩ := (findingsListAnd_iff_export hs).mp h
  rw [exportWhere_eq, hexport, Bool.true_and]
  constructor
  · rintro hin rfl hmuted
    rw [inExport, hmuted, Bool.and_eq_true, Option.all_some, decide_eq_true_iff] at hin
    exact Int.lt_irrefl now hin.2
  · intro hne
    rcases inPart_iff_inExport.mp hpart with hin | ⟨hopen, -, hmuted⟩
    · exact hin
    · exact absurd hmuted (hne hopen)

theorem exports_iff {status : Option Status} (limit : Option Int) :
    (∃ rows : List FindingRow, rows.Perm (allPages rt db orgId scope now q ⟨none, status⟩ limit) ∧
      (buildExport rt db orgId scope now q [] status).rows = rows.take MAX_ROWS) ↔
      ExportUniform rt db orgId scope now q status := by
  have hexported : (exported rt db orgId scope now q [] status).Nodup :=
    (rt.orderBy_perm _ _).nodup_iff.mpr (nodup_selected _)
  have hpages : (allPages rt db orgId scope now q ⟨none, status⟩ limit).Nodup := by
    rw [allPages_eq]
    exact (rt.orderBy_perm _ _).nodup_iff.mpr (nodup_selected _)
  refine (exists_perm_take_iff hexported hpages).trans (and_congr ?_ ?_)
  · refine forall₂_congr fun f hf ↦ ?_
    obtain ⟨hmem, hwhere⟩ := mem_exported.mp (List.mem_of_mem_take hf)
    rw [mem_allPages, listed_iff_of_exportWhere hmem hwhere, and_iff_right hmem]
  · refine forall_congr' fun _ ↦ ⟨fun h hopen f hf hlist ↦ ?_, fun h f hf ↦ ?_⟩
    · have hin := h f (mem_allPages.mpr ⟨hf, hlist⟩)
      exact (exportWhere_iff_of_listed hf hlist).mp (mem_exported.mp hin).2 hopen
    · obtain ⟨hf, hlist⟩ := mem_allPages.mp hf
      exact mem_exported.mpr ⟨hf, (exportWhere_iff_of_listed hf hlist).mpr fun hopen ↦
        h hopen f hf hlist⟩

/-! ## Agreement -/

variable (rt db orgId scope now) in
/-- The findings of servers that are in scope and in use that match the filters. -/
def matching (q : Filters) (f : FindingRow) : Bool :=
  rest rt db orgId scope now q.toSummaryQuery {} f && dims.all fun d ↦ admits db q f d

theorem findingsListAnd_eq_matching (hf : f ∈ db.findings) :
    findingsListAnd rt db orgId scope now q {} f = matching rt db orgId scope now q f := by
  have hall : ∀ d : Dim, d ∈ dims := by
    intro d
    cases d <;> decide
  rw [Bool.eq_iff_iff, findingsListAnd_iff hf, matching, Bool.and_eq_true, List.all_eq_true]
  exact and_congr_right fun _ ↦ ⟨fun h d _ ↦ h d, fun h d ↦ h d (hall d)⟩

variable (rt db orgId scope now) in
/-- What the views of the findings say of each other, for some filters. -/
structure Agree (q : Filters) : Prop where
  /-- The sections, over all pages, are a partition of what the filters let through. -/
  partition : ∀ limit, (sections.flatMap fun s ↦
    allPages rt db orgId scope now q ⟨some s, none⟩ limit).Perm
      (selected db (matching rt db orgId scope now q))
  counts : ∀ s, (getSummary rt db orgId scope now q.toSummaryQuery).sections.get s =
    (listFindings rt db orgId scope now q ⟨some s, none⟩ none none).total
  /-- A group counts what the list has with the values of the group. -/
  groups : ∀ p groupBy path n, Reaches (getFindingGroups rt db orgId scope now q p groupBy) path n →
    n.count =
      (listFindings rt db orgId scope now (path.foldl Filters.withValue q) p none none).total
  /-- The export has what the list has over all pages, cut off at the cap. -/
  exports : ∀ status limit, ∃ rows : List FindingRow,
    rows.Perm (allPages rt db orgId scope now q ⟨none, status⟩ limit) ∧
      (buildExport rt db orgId scope now q [] status).rows = rows.take MAX_ROWS

variable (rt db orgId scope now) in
/-- What has to hold of the findings for the views to agree. -/
structure Uniform (q : Filters) : Prop where
  narrows : ∀ f ∈ db.findings,
    buildFindingsWhere rt db orgId scope { q.toSummaryQuery with } f = true → narrows q f = true
  short : ∀ f ∈ db.findings, findingsListAnd rt db orgId scope now q {} f = true →
    ∀ n ∈ f.port, n < 100000
  exports : ∀ status, ExportUniform rt db orgId scope now q status

theorem listed_of_part (h : findingsListAnd rt db orgId scope now q p f = true) :
    findingsListAnd rt db orgId scope now q {} f = true := by
  rw [findingsListAnd_eq, Bool.and_eq_true] at h
  rw [findingsListAnd_eq, h.1]
  rfl

theorem total_eq_zero {path : List (Dim × String)} {proto : FindingProto} {n : Nat}
    (hn : ¬ n < 100000) :
    (listFindings rt db orgId scope now
      ((path ++ [(Dim.port, portValue (some proto) n)]).foldl Filters.withValue q) p none none).total
      = 0 := by
  refine List.length_eq_zero_iff.mpr (List.filter_eq_nil_iff.mpr fun f hf h ↦ ?_)
  rw [List.foldl_append] at h
  have hadmits := ((findingsListAnd_iff hf).mp h).2 .port
  change findingsPortWhere (some (portValue (some proto) n)) f = true at hadmits
  rw [findingsPortWhere_portValue, decide_eq_true_iff] at hadmits
  exact hn hadmits.1

theorem short_of_groups (h : ∀ p groupBy path n,
    Reaches (getFindingGroups rt db orgId scope now q p groupBy) path n → n.count =
      (listFindings rt db orgId scope now (path.foldl Filters.withValue q) p none none).total)
    (hf : f ∈ db.findings) (hlist : findingsListAnd rt db orgId scope now q {} f = true) :
    ∀ n ∈ f.port, n < 100000 := by
  intro n hn
  by_contra hlong
  obtain ⟨proto, hproto⟩ := Option.isSome_iff_exists.mp (db.proto_of f hf (by rw [hn]; rfl))
  have hkeys : parseGroupBy ["port"] = [.port] := by decide
  set rows := tally ((selected db (findingsListAnd rt db orgId scope now q {})).map
    (columns [.port])) with hrows
  have hcolumns : columns [.port] f ∈
      (selected db (findingsListAnd rt db orgId scope now q {})).map (columns [.port]) :=
    List.mem_map_of_mem (mem_selected.mpr ⟨hf, hlist⟩)
  have hrow : (columns [.port] f, ((selected db (findingsListAnd rt db orgId scope now q {})).map
      (columns [.port])).count (columns [.port] f)) ∈ rows := mem_tally.mpr ⟨hcolumns, rfl⟩
  obtain ⟨path, m, hreach, hfollows⟩ :=
    Grouping.exists_reaches (g := findingGrouping rt db orgId) hrow (List.mem_singleton_self Dim.port)
  rw [value_columns (List.mem_singleton_self _), rowValue_port_some hn hproto] at hreach
  have htree : Reaches (getFindingGroups rt db orgId scope now q {} ["port"])
      (path ++ [(Dim.port, portValue (some proto) n)]) m := by
    rw [getFindingGroups, hkeys]
    exact hreach
  have hzero := (h _ _ _ _ htree).trans (total_eq_zero hlong)
  rw [Grouping.count_of_reaches hreach, hrows, sum_tally, List.countP_eq_zero] at hzero
  refine hzero _ hcolumns ?_
  rw [Grouping.follows, List.all_append, Bool.and_eq_true]
  refine ⟨hfollows, ?_⟩
  rw [List.all_cons, List.all_nil, Bool.and_true, decide_eq_true_iff,
    value_columns (List.mem_singleton_self _), rowValue_port_some hn hproto]

/-- The views agree just when the findings are uniform. -/
theorem agree_iff : Agree rt db orgId scope now q ↔ Uniform rt db orgId scope now q := by
  constructor
  · intro h
    exact ⟨get_sections_eq_total_iff.mp h.counts, fun f hf hlist ↦ short_of_groups h.groups hf hlist,
      fun status ↦ (exports_iff none).mp (h.exports status none)⟩
  · intro h
    refine ⟨fun limit ↦ ?_, get_sections_eq_total_iff.mpr h.narrows, fun p groupBy path n hreach ↦ ?_,
      fun status limit ↦ (exports_iff limit).mpr (h.exports status)⟩
    · refine List.Perm.trans ?_ (sections_partition db now _)
      refine List.Perm.flatMap_left sections fun s _ ↦ ?_
      rw [allPages_eq]
      refine (rt.orderBy_perm _ _).trans (List.Perm.of_eq (List.filter_congr fun f hf ↦ ?_))
      rw [← findingsListAnd_eq_matching hf, findingsListAnd_eq, findingsListAnd_eq]
      simp [inPart]
    · exact count_eq_total (fun f hf hlist ↦ h.short f hf (listed_of_part hlist)) hreach

end

/-! ## Two fleets -/

def plainRuntime : Runtime where
  contains _ _ := false
  orderBy _ rows := rows
  orderBy_perm _ _ := List.Perm.refl _
  number _ := none
  localeCompare _ _ := .eq

def oneFinding (isActive : Bool) : Fleet where
  servers := ⟨[{ id := "server", orgId := "org", customerId := "customer", isActive }], by simp⟩
  findings := ⟨[{
    code := .SENSITIVE_PORT_LAN, severity := .HIGH, proto := some .tcp, port := some 5432,
    ownerLabel := none, service := none, message := "", detail := [],
    firstSeenAt := 0, lastSeenAt := 0, orgId := "org", serverId := "server" }], by simp⟩
  host_of := by
    intro f hf
    rw [List.mem_singleton.mp hf]
    exact ⟨_, List.mem_singleton_self _, rfl, rfl⟩
  proto_of := by
    intro f hf
    rw [List.mem_singleton.mp hf]
    exact fun _ ↦ rfl
  id_ne := by
    intro s hs
    rw [List.mem_singleton.mp hs]
    have hserver : "server" ≠ "" := by decide
    have hcustomer : "customer" ≠ "" := by decide
    exact ⟨hserver, hcustomer⟩

/-- The summary counts a finding that the filter by severity keeps out of the list, and the export
has a finding of a server that is not in use. -/
theorem views_disagree :
    ¬ Agree plainRuntime (oneFinding true) "org" .unscoped 1 { severity := some .CRITICAL } ∧
      ¬ Agree plainRuntime (oneFinding false) "org" .unscoped 1 {} := by
  constructor
  · intro h
    have hopen := h.counts .open
    revert hopen
    decide
  · intro h
    obtain ⟨rows, hrows, hexport⟩ := h.exports none none
    have hpages :
        allPages plainRuntime (oneFinding false) "org" .unscoped 1 {} ⟨none, none⟩ none = [] := by
      decide
    rw [hpages] at hrows
    rw [hrows.eq_nil] at hexport
    revert hexport
    decide

end Shellius.Posture.Views
