import Shellius.Lib.Checks
import Shellius.Lib.Csv
import Shellius.Lib.Grouping
import Shellius.Net
import Shellius.Schema
import Shellius.Text

/-!
# Exported files

The CSV and the archive of `postureExportService.buildExport`.  A cell is put in quotes if it has a
comma, a quote or LF in it.  A value of a host may also have a CR, and a cell with nothing but that
is written as it is: to a reader of CSV files it ends the record (`losesCR_iff`).

In the archive there is a file for each server that a row is of or that was selected, each with the
rows of its server under a name of its own (`archive_spec`).
-/

namespace Shellius.Posture.Export

open Lib

/-! ## Rows and fields -/

/-- The server that a row comes with. -/
structure ServerRef where
  id : Id
  displayName : Option String := none
  hostname : String := ""

/-- A row, with what the fields of the catalogue get of it. -/
structure Row where
  server : Option ServerRef := none
  serverId : Id := ""
  value : String → String

/-- A column. -/
structure Field where
  key : String
  label : String
deriving DecidableEq

inductive Dataset where
  | findings | listeners

def Dataset.key : Dataset → String
  | .findings => "findings"
  | .listeners => "listeners"

/-- `FINDING_FIELDS` and `LISTENER_FIELDS` -/
def Dataset.fields : Dataset → List Field
  | .findings => [⟨"severity", "Severity"⟩, ⟨"status", "Status"⟩, ⟨"code", "Code"⟩,
      ⟨"message", "Message"⟩, ⟨"proto", "Protocol"⟩, ⟨"port", "Port"⟩, ⟨"service", "Service"⟩,
      ⟨"ownerLabel", "Owner"⟩, ⟨"server", "Server"⟩, ⟨"serverHostname", "Hostname"⟩,
      ⟨"serverIp", "IP address"⟩, ⟨"environment", "Environment"⟩, ⟨"customer", "Customer"⟩,
      ⟨"firstSeenAt", "First seen"⟩, ⟨"lastSeenAt", "Last seen"⟩, ⟨"resolvedAt", "Resolved"⟩,
      ⟨"acknowledgedAt", "Acknowledged"⟩, ⟨"mutedUntil", "Muted until"⟩,
      ⟨"mutedReason", "Mute reason"⟩, ⟨"detail", "Detail"⟩, ⟨"id", "Finding ID"⟩]
  | .listeners => [⟨"proto", "Protocol"⟩, ⟨"port", "Port"⟩, ⟨"bind", "Bind address"⟩,
      ⟨"containerPort", "Container port"⟩, ⟨"reachability", "Reachability"⟩,
      ⟨"bindClass", "Bind class"⟩, ⟨"service", "Service"⟩, ⟨"ownerKind", "Owner kind"⟩,
      ⟨"ownerName", "Owner name"⟩, ⟨"ownerRef", "Owner reference"⟩, ⟨"ownerUser", "Unix user"⟩,
      ⟨"ownerDetail", "Owner detail"⟩, ⟨"sourcePath", "Source"⟩, ⟨"pid", "PID"⟩,
      ⟨"server", "Server"⟩, ⟨"environment", "Environment"⟩, ⟨"customer", "Customer"⟩]

def resolveFields (dataset : Dataset) (requested : List String) : Except ApiError (List Field) :=
  if requested = [] then .ok dataset.fields
  else
    let picked := dataset.fields.filter fun f ↦ f.key ∈ requested
    if picked = [] then .error ⟨400, "No valid fields selected", none⟩ else .ok picked

/-! ## CSV -/

/-- What a spreadsheet takes for the beginning of a formula. -/
def formulaChars : List Char := ['=', '+', '-', '@', '\t', '\r']

/-- An apostrophe before a formula. -/
def guarded (str : List Char) : List Char :=
  if str.head?.any (· ∈ formulaChars) then '\x27' :: str else str

def csvCell (str : List Char) : List Char :=
  if ',' ∈ guarded str ∨ '\x22' ∈ guarded str ∨ '\n' ∈ guarded str then Csv.quote (guarded str)
  else guarded str

def toCsv (rows : List Row) (fields : List Field) : List Char :=
  let header := [','].intercalate (fields.map fun f ↦ csvCell f.label.toList)
  let lines := header :: rows.map fun row ↦
    [','].intercalate (fields.map fun f ↦ csvCell (row.value f.key).toList)
  ['\n'].intercalate lines ++ ['\n']

/-- The header and the rows, before they are written. -/
def table (rows : List Row) (fields : List Field) : List (List (List Char)) :=
  (fields.map fun f ↦ f.label.toList) ::
    rows.map fun row ↦ fields.map fun f ↦ (row.value f.key).toList

/-- A cell that is still the value, but for an apostrophe, and that is no formula. -/
def Kept (value cell : List Char) : Prop :=
  (cell = value ∨ cell = '\x27' :: value) ∧ ∀ c ∈ cell.head?, c ∉ formulaChars

/-- The header and each row are read back as a record of its own. -/
def Lossless (rows : List Row) (fields : List Field) : Prop :=
  ∃ recs, Csv.parse (toCsv rows fields) = some recs ∧
    List.Forall₂ (List.Forall₂ Kept) (table rows fields) recs

/-- A value with a CR and nothing that would put it in quotes. -/
def LosesCR (value : List Char) : Prop :=
  '\r' ∈ value ∧ ',' ∉ value ∧ '\x22' ∉ value ∧ '\n' ∉ value

section

variable {rows : List Row} {fields : List Field} {dataset : Dataset} {requested : List String}
  {v : List Char}

theorem resolveFields_ne_nil (h : resolveFields dataset requested = .ok fields) : fields ≠ [] := by
  unfold resolveFields at h
  split at h
  · obtain rfl := Except.ok.inj h
    cases dataset <;> exact List.cons_ne_nil _ _
  · dsimp only at h
    split at h
    · cases h
    · rename_i hne
      exact Except.ok.inj h ▸ hne

theorem mem_of_resolveFields (h : resolveFields dataset requested = .ok fields) {f : Field}
    (hf : f ∈ fields) : f ∈ dataset.fields := by
  unfold resolveFields at h
  split at h
  · exact Except.ok.inj h ▸ hf
  · dsimp only at h
    split at h
    · cases h
    · obtain rfl := Except.ok.inj h
      exact (List.mem_filter.mp hf).1

theorem label_spec {f : Field} (h : f ∈ dataset.fields) : '\r' ∉ f.label.toList := by
  have hall : dataset.fields.all (fun f ↦ !f.label.toList.elem '\r') = true := by
    cases dataset <;> decide +kernel
  have hf := List.all_eq_true.mp hall f h
  simpa using hf

theorem mem_guarded {c : Char} (hc : c ≠ '\x27') : c ∈ guarded v ↔ c ∈ v := by
  unfold guarded
  split <;> simp [hc]

theorem kept_guarded : Kept v (guarded v) := by
  unfold guarded
  split
  · refine ⟨.inr rfl, fun c hc ↦ ?_⟩
    obtain rfl := Option.some.inj hc
    decide
  · rename_i hhead
    refine ⟨.inl rfl, fun c hc hformula ↦ hhead ?_⟩
    rw [Option.mem_def.mp hc]
    exact decide_eq_true hformula

theorem mem_special : ',' ∈ guarded v ∨ '\x22' ∈ guarded v ∨ '\n' ∈ guarded v ↔
    ',' ∈ v ∨ '\x22' ∈ v ∨ '\n' ∈ v := by
  rw [mem_guarded (by decide), mem_guarded (by decide), mem_guarded (by decide)]

theorem written_csvCell (h : ¬ LosesCR v) : Csv.Written (csvCell v) (guarded v) := by
  unfold csvCell
  split
  · exact .inl rfl
  · rename_i hbare
    refine .inr ⟨rfl, List.all_eq_true.mpr fun c hc ↦ decide_eq_true ?_⟩
    refine ⟨fun heq ↦ hbare (.inl (heq ▸ hc)), fun heq ↦ hbare (.inr (.inl (heq ▸ hc))),
      fun heq ↦ hbare (.inr (.inr (heq ▸ hc))), fun heq ↦ h ?_⟩
    rw [mem_special, not_or, not_or] at hbare
    exact ⟨(mem_guarded (by decide)).mp (heq ▸ hc), hbare⟩

theorem broken_csvCell (h : LosesCR v) : Csv.Broken (csvCell v) := by
  obtain ⟨hcr, hspecial⟩ := h
  have hbare : ¬ (',' ∈ guarded v ∨ '\x22' ∈ guarded v ∨ '\n' ∈ guarded v) := by
    rwa [mem_special, not_or, not_or]
  rw [csvCell, if_neg hbare]
  obtain ⟨u, w, heq, hu⟩ := List.eq_append_cons_of_mem ((mem_guarded (by decide)).mpr hcr)
  refine ⟨u, w, heq, List.all_eq_true.mpr fun c hc ↦ decide_eq_true ?_⟩
  have hmem : c ∈ guarded v := heq ▸ List.mem_append_left _ hc
  exact ⟨fun h ↦ hbare (.inl (h ▸ hmem)), fun h ↦ hbare (.inr (.inl (h ▸ hmem))),
    fun h ↦ hbare (.inr (.inr (h ▸ hmem))), fun h ↦ hu (h ▸ hc)⟩

theorem toCsv_eq : toCsv rows fields = Csv.lines csvCell (table rows fields) := by
  unfold toCsv Csv.lines table
  dsimp only
  rw [Csv.intercalate_concat (List.cons_ne_nil _ _), List.flatMap_cons, List.flatMap_cons,
    List.flatMap_map, List.flatMap_map, List.map_map]
  simp only [List.map_map]
  rfl

theorem count_csvCell : (csvCell v).count '\r' = v.count '\r' := by
  have hguarded : (guarded v).count '\r' = v.count '\r' := by
    unfold guarded
    split
    · exact List.count_cons_of_ne (by decide)
    · rfl
  unfold csvCell
  split
  · rw [Csv.count_quote, hguarded]
  · exact hguarded

theorem countCR_of_kept {ls recs : List (List (List Char))}
    (h : List.Forall₂ (List.Forall₂ Kept) ls recs) : Csv.countCR recs = Csv.countCR ls := by
  have hcell : ∀ {v cell}, Kept v cell → cell.count '\r' = v.count '\r' := by
    rintro v cell ⟨rfl | rfl, -⟩
    · rfl
    · exact List.count_cons_of_ne (by decide)
  have hline : ∀ {line rec}, List.Forall₂ Kept line rec →
      rec.flatten.count '\r' = line.flatten.count '\r' := by
    intro line rec hrec
    induction hrec with
    | nil => rfl
    | cons hkept _ ih =>
      rw [List.flatten_cons, List.flatten_cons, List.count_append, List.count_append,
        hcell hkept, ih]
  unfold Csv.countCR
  induction h with
  | nil => rfl
  | cons hrec _ ih =>
    simp only [List.flatten_cons, List.flatten_append, List.count_append]
    rw [hline hrec, ih]

theorem lossless_iff (hne : fields ≠ []) : Lossless rows fields ↔
    ∀ line ∈ table rows fields, ∀ v ∈ line, ¬ LosesCR v := by
  have hlines : ∀ line ∈ table rows fields, line ≠ [] := by
    intro line hline
    rcases List.mem_cons.mp hline with rfl | hline
    · exact fun hnil ↦ hne (List.map_eq_nil_iff.mp hnil)
    · obtain ⟨row, -, rfl⟩ := List.mem_map.mp hline
      exact fun hnil ↦ hne (List.map_eq_nil_iff.mp hnil)
  constructor
  · rintro ⟨recs, hparse, hkept⟩
    by_contra hlost
    simp only [not_forall, not_not] at hlost
    obtain ⟨line, hline, v, hv, hlost⟩ := hlost
    rw [toCsv_eq] at hparse
    have hcells : ∀ line ∈ table rows fields, line ≠ [] ∧
        ∀ v ∈ line, Csv.Written (csvCell v) (guarded v) ∨ Csv.Broken (csvCell v) := by
      refine fun line hline ↦ ⟨hlines line hline, fun v _ ↦ ?_⟩
      by_cases hl : LosesCR v
      · exact .inr (broken_csvCell hl)
      · exact .inl (written_csvCell hl)
    have hlt := Csv.count_lt_of_broken hcells ⟨line, hline, v, hv, broken_csvCell hlost⟩ hparse
    rw [Csv.count_lines fun _ ↦ count_csvCell, countCR_of_kept hkept] at hlt
    exact Nat.lt_irrefl _ hlt
  · intro hnone
    refine ⟨_, toCsv_eq ▸ Csv.parse_lines fun line hline ↦
      ⟨hlines line hline, fun v hv ↦ written_csvCell (hnone line hline v hv)⟩, ?_⟩
    rw [List.forall₂_map_right_iff]
    refine List.forall₂_same.mpr fun line _ ↦ ?_
    rw [List.forall₂_map_right_iff]
    exact List.forall₂_same.mpr fun v _ ↦ kept_guarded

end

/-! ## The archive -/

/-- The rows of one server. -/
structure Group where
  id : Id
  server : Option ServerRef
  rows : List Row

/-- `row.server?.id || row.serverId || 'unknown'` -/
def Row.groupKey (row : Row) : Id :=
  ((row.server.map ServerRef.id).filter (· ≠ "")).getD
    (if row.serverId = "" then "unknown" else row.serverId)

/-- A row is put to those of its server. -/
def addRow (grouped : List Group) (row : Row) : List Group :=
  if row.groupKey ∈ grouped.map Group.id then
    grouped.map fun g ↦ if g.id = row.groupKey then { g with rows := g.rows ++ [row] } else g
  else grouped ++ [⟨row.groupKey, row.server, [row]⟩]

def addServer (grouped : List Group) (id : Id) : List Group :=
  if id ∈ grouped.map Group.id then grouped else grouped ++ [⟨id, none, []⟩]

/-- `grouped` -/
def groupRows (rows : List Row) (serverIds : List Id) : List Group :=
  serverIds.foldl addServer (rows.foldl addRow [])

def isSlugChar (c : Char) : Bool := isDecimal c ∨ ('a' ≤ c ∧ c ≤ 'z')

def slug (toLowerCase : String → String) (text : String) : String :=
  let cs := (Lib.trim '-' (squeeze isSlugChar '-' false
    (toLowerCase (if text = "" then "server" else text)).toList)).take 60
  if cs = [] then "server" else .ofList cs

/-- What a server is called. -/
def Group.title (g : Group) : String :=
  ((g.server.bind ServerRef.displayName).filter (· ≠ "")).getD
    (((g.server.map ServerRef.hostname).filter (· ≠ "")).getD g.id)

def nameFiles (toLowerCase : String → String) (dataset : Dataset) :
    List String → List Group → List (String × Group)
  | _, [] => []
  | used, g :: gs =>
    let base := slug toLowerCase g.title ++ "-" ++ dataset.key
    let name := if base ∈ used then firstFree used fun n ↦ base ++ "-" ++ (n + 2).repr else base
    (name, g) :: nameFiles toLowerCase dataset (used ++ [name]) gs

/-- The archive: for each file its name, without the extension, and whose rows are in it. -/
def archive (toLowerCase : String → String) (dataset : Dataset) (rows : List Row)
    (serverIds : List Id) : List (String × Group) :=
  nameFiles toLowerCase dataset [] (groupRows rows serverIds)

section

variable {toLowerCase : String → String} {dataset : Dataset} {rows : List Row} {row : Row}
  {grouped : List Group} {serverIds : List Id} {id : Id}

structure GroupsOf (rows : List Row) (grouped : List Group) : Prop where
  nodup : (grouped.map Group.id).Nodup
  own : ∀ g ∈ grouped, g.rows = rows.filter fun row ↦ row.groupKey = g.id
  complete : ∀ row ∈ rows, row.groupKey ∈ grouped.map Group.id

theorem ids_addRow : (addRow grouped row).map Group.id =
    if row.groupKey ∈ grouped.map Group.id then grouped.map Group.id
    else grouped.map Group.id ++ [row.groupKey] := by
  unfold addRow
  split
  · rw [List.map_map]
    refine List.map_congr_left fun g _ ↦ ?_
    rw [Function.comp_apply]
    split <;> rfl
  · rw [List.map_append, List.map_singleton]

theorem GroupsOf.addRow (h : GroupsOf rows grouped) :
    GroupsOf (rows ++ [row]) (addRow grouped row) where
  nodup := by
    rw [ids_addRow]
    split
    · exact h.nodup
    · rename_i hnew
      rw [← List.concat_eq_append]
      exact h.nodup.concat hnew
  own g hg := by
    unfold Export.addRow at hg
    split at hg
    · obtain ⟨g₀, hg₀, rfl⟩ := List.mem_map.mp hg
      have hown := h.own g₀ hg₀
      split
      · rename_i hid
        rw [List.filter_append, ← hown, hid]
        simp
      · rename_i hid
        rw [List.filter_append, ← hown]
        simp [Ne.symm hid]
    · rename_i hnew
      rcases List.mem_append.mp hg with hg | hg
      · have hid : row.groupKey ≠ g.id := fun heq ↦ hnew (heq ▸ List.mem_map_of_mem hg)
        rw [h.own g hg, List.filter_append]
        simp [hid]
      · obtain rfl := List.mem_singleton.mp hg
        have hnone : rows.filter (fun r ↦ r.groupKey = row.groupKey) = [] :=
          List.filter_eq_nil_iff.mpr fun r hr hkey ↦
            hnew (of_decide_eq_true hkey ▸ h.complete r hr)
        rw [List.filter_append, hnone]
        simp
  complete r hr := by
    rw [ids_addRow]
    rcases List.mem_append.mp hr with hr | hr
    · have hmem := h.complete r hr
      split
      · exact hmem
      · exact List.mem_append_left _ hmem
    · obtain rfl := List.mem_singleton.mp hr
      split
      · assumption
      · exact List.mem_append_right _ (List.mem_singleton_self _)

theorem GroupsOf.addServer (h : GroupsOf rows grouped) (id : Id) :
    GroupsOf rows (addServer grouped id) ∧ id ∈ (addServer grouped id).map Group.id ∧
      grouped.map Group.id ⊆ (addServer grouped id).map Group.id := by
  unfold Export.addServer
  split
  · rename_i hmem
    exact ⟨h, hmem, List.Subset.refl _⟩
  · rename_i hnew
    rw [List.map_append, List.map_singleton]
    refine ⟨⟨?_, fun g hg ↦ ?_, fun row hrow ↦ ?_⟩,
      List.mem_append_right _ (List.mem_singleton_self _), List.subset_append_left ..⟩
    · rw [List.map_append, List.map_singleton, ← List.concat_eq_append]
      exact h.nodup.concat hnew
    · rcases List.mem_append.mp hg with hg | hg
      · exact h.own g hg
      · obtain rfl := List.mem_singleton.mp hg
        have hnone : rows.filter (fun r ↦ r.groupKey = id) = [] :=
          List.filter_eq_nil_iff.mpr fun r hr hkey ↦
            hnew (of_decide_eq_true hkey ▸ h.complete r hr)
        exact hnone.symm
    · rw [List.map_append]
      exact List.mem_append_left _ (h.complete row hrow)

theorem groupsOf_groupRows (rows : List Row) (serverIds : List Id) : GroupsOf rows (groupRows rows serverIds) ∧
    ∀ id ∈ serverIds, id ∈ (groupRows rows serverIds).map Group.id := by
  have hrows : GroupsOf rows (rows.foldl addRow []) := by
    induction rows using List.reverseRecOn with
    | nil => exact ⟨List.nodup_nil, fun g hg ↦ absurd hg List.not_mem_nil,
        fun row hrow ↦ absurd hrow List.not_mem_nil⟩
    | append_singleton rows row ih =>
      rw [List.foldl_append]
      exact ih.addRow
  unfold groupRows
  generalize rows.foldl addRow [] = grouped at hrows
  induction serverIds using List.reverseRecOn with
  | nil => exact ⟨hrows, fun id hid ↦ absurd hid List.not_mem_nil⟩
  | append_singleton ids id ih =>
    rw [List.foldl_append]
    obtain ⟨hgroups, hmem, hsub⟩ := ih.1.addServer id
    refine ⟨hgroups, fun id' hid' ↦ ?_⟩
    rcases List.mem_append.mp hid' with hid' | hid'
    · exact hsub (ih.2 id' hid')
    · exact List.mem_singleton.mp hid' ▸ hmem

theorem nameFiles_spec (toLowerCase : String → String) (dataset : Dataset) (used : List String)
    (grouped : List Group) : (nameFiles toLowerCase dataset used grouped).map Prod.snd = grouped ∧
    ((nameFiles toLowerCase dataset used grouped).map Prod.fst).Nodup ∧
      ∀ name ∈ (nameFiles toLowerCase dataset used grouped).map Prod.fst, name ∉ used := by
  induction grouped generalizing used with
  | nil => exact ⟨rfl, List.nodup_nil, fun name hname ↦ absurd hname List.not_mem_nil⟩
  | cons g grouped ih =>
    rw [nameFiles]
    generalize slug toLowerCase g.title ++ "-" ++ dataset.key = base
    have hfree : (if base ∈ used then firstFree used fun n ↦ base ++ "-" ++ (n + 2).repr
        else base) ∉ used := by
      split
      · refine firstFree_notMem fun i j h ↦ ?_
        have hlists := congrArg String.toList h
        simp only [String.toList_append] at hlists
        have hrepr := repr_injective (String.toList_inj.mp (List.append_cancel_left hlists))
        omega
      · assumption
    generalize (if base ∈ used then firstFree used fun n ↦ base ++ "-" ++ (n + 2).repr
      else base) = name at hfree ⊢
    obtain ⟨hgroups, hnodup, hnames⟩ := ih (used ++ [name])
    simp only [List.map_cons]
    refine ⟨by rw [hgroups], List.nodup_cons.mpr ⟨fun hmem ↦ hnames name hmem ?_, hnodup⟩,
      List.forall_mem_cons.mpr ⟨hfree, fun n hn hused ↦
        hnames n hn (List.mem_append_left _ hused)⟩⟩
    exact List.mem_append_right _ (List.mem_singleton_self _)

theorem archive_spec : ((archive toLowerCase dataset rows serverIds).map Prod.fst).Nodup ∧
    ((archive toLowerCase dataset rows serverIds).flatMap fun f ↦ f.2.rows).Perm rows ∧
    ∀ id ∈ serverIds,
      ((archive toLowerCase dataset rows serverIds).map fun f ↦ f.2.id).count id = 1 := by
  obtain ⟨hgroups, hservers⟩ := groupsOf_groupRows rows serverIds
  obtain ⟨hfiles, hnodup, -⟩ := nameFiles_spec toLowerCase dataset []
    (groupRows rows serverIds)
  have hids : (archive toLowerCase dataset rows serverIds).map (fun f ↦ f.2.id) =
      (groupRows rows serverIds).map Group.id := by
    rw [← hfiles, List.map_map]
    rfl
  refine ⟨hnodup, ?_, fun id hid ↦ ?_⟩
  · have hrows : (archive toLowerCase dataset rows serverIds).flatMap (fun f ↦ f.2.rows) =
        ((groupRows rows serverIds).map Group.id).flatMap
          fun k ↦ rows.filter fun row ↦ row.groupKey = k := by
      rw [List.flatMap_map, ← hfiles, List.flatMap_map]
      refine List.flatMap_congr fun f hf ↦ hgroups.own f.2 ?_
      rw [← hfiles]
      exact List.mem_map_of_mem hf
    rw [hrows]
    exact flatMap_filter_perm Row.groupKey hgroups.nodup hgroups.complete
  · rw [hids]
    exact List.count_eq_one_of_mem hgroups.nodup (hservers id hid)

/-- **An export is lossless if and only if no selected field of a row has a CR in it without a comma,
a quote or LF.**  The archive has every row in one file, and one file for every server. -/
theorem export_iff (toLowerCase : String → String) (dataset : Dataset) (requested : List String)
    (rows : List Row) (serverIds : List Id) :
    (∀ fields, resolveFields dataset requested = .ok fields → Lossless rows fields ∧
      ((archive toLowerCase dataset rows serverIds).map Prod.fst).Nodup ∧
      ((archive toLowerCase dataset rows serverIds).flatMap fun f ↦ f.2.rows).Perm rows ∧
      ∀ id ∈ serverIds,
        ((archive toLowerCase dataset rows serverIds).map fun f ↦ f.2.id).count id = 1) ↔
    ∀ fields, resolveFields dataset requested = .ok fields →
      ∀ row ∈ rows, ∀ f ∈ fields, ¬ LosesCR (row.value f.key).toList := by
  refine forall₂_congr fun fields hfields ↦ ?_
  rw [and_iff_left archive_spec, lossless_iff (resolveFields_ne_nil hfields), table,
    List.forall_mem_cons, List.forall_mem_map, List.forall_mem_map]
  have hlabels : ∀ f ∈ fields, ¬ LosesCR f.label.toList := fun f hf hl ↦
    label_spec (mem_of_resolveFields hfields hf) hl.1
  rw [and_iff_right hlabels]
  exact forall₂_congr fun row _ ↦ List.forall_mem_map

end

/-! ### A carriage return -/

theorem carriage_return_splits : ¬ ∀ rows fields, resolveFields .findings ["message"] = .ok fields →
    Lossless rows fields := by
  intro hall
  have hlossless := hall [{ value := fun _ ↦ "a\rb" }] [⟨"message", "Message"⟩] (by decide +kernel)
  rw [lossless_iff (List.cons_ne_nil _ _)] at hlossless
  exact hlossless ["a\rb".toList] (by decide +kernel) "a\rb".toList (by decide +kernel)
    (by unfold LosesCR; decide +kernel)

end Shellius.Posture.Export
