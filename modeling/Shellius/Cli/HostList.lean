import Shellius.Cli.Listings
import Shellius.Lib.Select
import Mathlib.Data.String.Basic

/-!
# The host list of the CLI

`tui/internal/tui/hostlist.go`.  The cursor and Enter go by the list as it was loaded and filtered;
the view groups it by customers, puts the groups in order and heads each with a line, which takes
one of the lines that there are.  So the highlighted host is the one that Enter opens only as long
as the customers come in order and everything fits on the screen.

Case mapping and trimming are parameters.  Widths, colours and the line that counts are left out.
-/

namespace Shellius.Cli.HostList

open Lib Listings

inductive HostListState
  | loading | ready | error
deriving DecidableEq

structure HostListModel where
  state : HostListState := .loading
  allHosts : List Host := []
  filtered : List Host := []
  cursor : Nat := 0
  filter : String := ""
  height : Nat := 0
  visibleStart : Nat := 0

/-- `up` or `k`, `down` or `j`, `g` and `G`. -/
inductive Move
  | up | down | top | bottom

inductive Msg
  | windowSize (height : Nat)
  | hostsLoaded (hosts : List Host)
  | hostsErr
  | /-- `forceRefreshMsg` of the app. -/
    forceRefresh
  | reload
  | move (k : Move)
  | /-- Any other key, after which the filter is this text. -/
    edit (text : String)

/-- Every character of the needle is a byte of the haystack, in order. -/
def fuzzyMatch : List Char → List UInt8 → Bool
  | [], _ => true
  | c :: needle, haystack =>
    match haystack.dropWhile fun b ↦ b.toNat ≠ c.toNat with
    | [] => false
    | _ :: rest => fuzzyMatch needle rest

def visibleRows (height : Nat) : Nat := max 5 (height - 11)

def HostListModel.move (m : HostListModel) : Move → HostListModel
  | .up =>
    if 0 < m.cursor then
      { m with cursor := m.cursor - 1, visibleStart := min m.visibleStart (m.cursor - 1) }
    else m
  | .down =>
    if m.cursor + 1 < m.filtered.length then
      { m with
        cursor := m.cursor + 1
        visibleStart :=
          if m.visibleStart + visibleRows m.height ≤ m.cursor + 1 then
            m.cursor + 1 + 1 - visibleRows m.height
          else m.visibleStart }
    else m
  | .top => { m with cursor := 0, visibleStart := 0 }
  | .bottom =>
    if 0 < m.filtered.length then
      { m with
        cursor := m.filtered.length - 1
        visibleStart :=
          if visibleRows m.height ≤ m.filtered.length - 1 then
            m.filtered.length - 1 + 1 - visibleRows m.height
          else m.visibleStart }
    else m

section

variable (toLower trimSpace : String → String)

def applyFilter (m : HostListModel) : List Host :=
  let q := toLower (trimSpace m.filter)
  if q = "" then m.allHosts
  else m.allHosts.filter fun h ↦ fuzzyMatch q.toList (toLower (h.name ++ " " ++ h.hostname ++ " " ++
    h.customerName ++ " " ++ h.environment)).toUTF8.toList

def update (m : HostListModel) : Msg → HostListModel
  | .windowSize height => { m with height }
  | .hostsLoaded hosts =>
    { m with allHosts := hosts, filtered := hosts, state := .ready, cursor := 0, visibleStart := 0 }
  | .hostsErr => { m with state := .error }
  | .forceRefresh => { m with state := .loading }
  | .reload =>
    if m.state = .ready then
      { m with state := .loading, allHosts := [], filtered := [], cursor := 0, visibleStart := 0 }
    else m
  | .move k => if m.state = .ready then m.move k else m
  | .edit text =>
    if m.state = .ready then
      let filtered := applyFilter toLower trimSpace { m with filter := text }
      { m with
        filter := text
        filtered
        cursor := if filtered.length ≤ m.cursor then filtered.length - 1 else m.cursor
        visibleStart := 0 }
    else m

def run (msgs : List Msg) : HostListModel := msgs.foldl (update toLower trimSpace) {}

end

def enter (m : HostListModel) : Option Host :=
  if m.state = .ready then m.filtered[m.cursor]? else none

/-! ## What is shown -/

inductive FlatItem
  | header (customer : String)
  | host (h : Host)

def FlatItem.host? : FlatItem → Option Host
  | .header _ => none
  | .host h => some h

def customerOrder (hosts : List Host) : List String :=
  sortOn id (hosts.map Host.customerName).dedup

/-- The groups, one after the other, each under its customer. -/
def flat (hosts : List Host) : List FlatItem :=
  (customerOrder hosts).flatMap fun customer ↦
    .header customer :: (hosts.filter (·.customerName = customer)).map .host

def hostFlatIdx : List FlatItem → Nat → Option Nat
  | [], _ => none
  | .header _ :: items, n => (hostFlatIdx items n).map (· + 1)
  | .host _ :: _, 0 => some 0
  | .host _ :: items, n + 1 => (hostFlatIdx items n).map (· + 1)

inductive Row
  | header (customer : String)
  | host (h : Host) (selected : Bool)

def Row.selected? : Row → Option Host
  | .host h true => some h
  | _ => none

/-- The rows from the host with number `i` on. -/
def rows (cursor : Nat) : Nat → List FlatItem → List Row
  | _, [] => []
  | i, .header customer :: items => .header customer :: rows cursor i items
  | i, .host h :: items => .host h (i = cursor) :: rows cursor (i + 1) items

def firstFlatVisible (m : HostListModel) : Nat :=
  if 0 < m.visibleStart then (hostFlatIdx (flat m.filtered) m.visibleStart).getD 0 else 0

def renderList (m : HostListModel) : List Row :=
  ((rows m.cursor 0 (flat m.filtered)).drop (firstFlatVisible m)).take (visibleRows m.height)

/-- One row is highlighted, which is the host that Enter opens, and going down from the first host
shows each. -/
def Faithful (m : HostListModel) : Prop :=
  m.state = .ready → m.filtered ≠ [] →
    (∃ h, (renderList m).filterMap Row.selected? = [h] ∧ enter m = some h) ∧
      ∀ h ∈ m.filtered, ∃ n selected,
        .host h selected ∈ renderList ((.top :: List.replicate n .down).foldl .move m)

/-- The customers come in order, and all hosts fit on the screen with them. -/
def Fits (m : HostListModel) : Prop :=
  m.filtered.Pairwise (·.customerName ≤ ·.customerName) ∧
    m.filtered.length + (m.filtered.map Host.customerName).dedup.length ≤ visibleRows m.height

section

variable {toLower trimSpace : String → String} {m : HostListModel} {hosts : List Host} {h : Host}
  {items pre post : List FlatItem} {ks : List String} {c i n : Nat}

/-! ## The groups -/

def shown (items : List FlatItem) : List Host := items.filterMap FlatItem.host?

@[simp] theorem shown_nil : shown [] = [] := rfl

@[simp] theorem shown_header {k : String} : shown (.header k :: items) = shown items := rfl

@[simp] theorem shown_host : shown (.host h :: items) = h :: shown items := rfl

@[simp] theorem shown_append : shown (pre ++ post) = shown pre ++ shown post :=
  List.filterMap_append

theorem shown_flat : shown (flat hosts) =
    (customerOrder hosts).flatMap fun k ↦ hosts.filter (·.customerName = k) := by
  have hgroup : ∀ l : List Host, (l.map .host).filterMap FlatItem.host? = l := fun l ↦ by
    simp [List.filterMap_map, Function.comp_def, FlatItem.host?]
  simp only [shown, flat, List.filterMap_flatMap, List.filterMap_cons, FlatItem.host?, hgroup]

theorem pairwise_customerOrder : (customerOrder hosts).Pairwise (· < ·) := by
  have hle := List.pairwise_insertionSort (fun a b : String ↦ a ≤ b)
    (hosts.map Host.customerName).dedup
  have hne := (List.perm_insertionSort (fun a b : String ↦ a ≤ b) _).nodup_iff.mpr
    (List.nodup_dedup (hosts.map Host.customerName))
  exact (hle.and hne).imp fun h ↦ lt_of_le_of_ne h.1 h.2

theorem mem_customerOrder {k : String} : k ∈ customerOrder hosts ↔ ∃ h ∈ hosts, h.customerName = k := by
  rw [customerOrder, mem_sortOn, List.mem_dedup, List.mem_map]

theorem filter_append_filter {k : String} (hsorted : hosts.Pairwise (·.customerName ≤ ·.customerName))
    (hk : ∀ h ∈ hosts, k ≤ h.customerName) :
    hosts.filter (·.customerName = k) ++ hosts.filter (·.customerName ≠ k) = hosts := by
  induction hosts with
  | nil => rfl
  | cons a hosts ih =>
    obtain ⟨ha, hrest⟩ := List.pairwise_cons.mp hsorted
    by_cases hak : a.customerName = k
    · have htail := ih hrest fun h hh ↦ hk h (List.mem_cons_of_mem _ hh)
      simpa [List.filter_cons, hak] using htail
    · have hlt : ∀ h ∈ a :: hosts, h.customerName ≠ k := by
        intro h hh he
        rcases List.mem_cons.mp hh with rfl | hh
        · exact hak he
        · exact hak (le_antisymm (he ▸ ha h hh) (hk a List.mem_cons_self))
      rw [List.filter_eq_nil_iff.mpr (by simpa using hlt), List.nil_append,
        List.filter_eq_self.mpr (by simpa using hlt)]

/-- Hosts whose customers come in order are not moved by the grouping. -/
theorem flatMap_filter (hsorted : hosts.Pairwise (·.customerName ≤ ·.customerName))
    (hks : ks.Pairwise (· < ·)) (hmem : ∀ h ∈ hosts, h.customerName ∈ ks) :
    (ks.flatMap fun k ↦ hosts.filter (·.customerName = k)) = hosts := by
  induction ks generalizing hosts with
  | nil => exact (List.eq_nil_iff_forall_not_mem.mpr fun h hh ↦ List.not_mem_nil (hmem h hh)).symm
  | cons k ks ih =>
    obtain ⟨hk, hks⟩ := List.pairwise_cons.mp hks
    have hle : ∀ h ∈ hosts, k ≤ h.customerName := fun h hh ↦
      (List.mem_cons.mp (hmem h hh)).elim (fun he ↦ he ▸ le_refl _) fun hin ↦ (hk _ hin).le
    have hrest := @ih (hosts.filter (·.customerName ≠ k)) (hsorted.sublist List.filter_sublist) hks
      fun h hh ↦ by
        obtain ⟨hh, hne⟩ := List.mem_filter.mp hh
        exact (List.mem_cons.mp (hmem h hh)).resolve_left (of_decide_eq_true hne)
    have hsame : ∀ k' ∈ ks, hosts.filter (·.customerName = k') =
        (hosts.filter (·.customerName ≠ k)).filter (·.customerName = k') := by
      intro k' hk'
      rw [List.filter_filter]
      refine List.filter_congr fun h _ ↦ ?_
      have hne := (hk k' hk').ne'
      grind
    rw [List.flatMap_cons, List.flatMap_congr hsame, hrest, filter_append_filter hsorted hle]

theorem shown_flat_of_sorted (hsorted : hosts.Pairwise (·.customerName ≤ ·.customerName)) :
    shown (flat hosts) = hosts :=
  shown_flat.trans <| flatMap_filter hsorted pairwise_customerOrder fun h hh ↦
    mem_customerOrder.mpr ⟨h, hh, rfl⟩

theorem sorted_shown_flat : (shown (flat hosts)).Pairwise (·.customerName ≤ ·.customerName) := by
  rw [shown_flat, List.pairwise_flatMap]
  refine ⟨fun k _ ↦ List.pairwise_of_forall_mem_list fun a ha b hb ↦ ?_,
    pairwise_customerOrder.imp fun {k k'} hk a ha b hb ↦ ?_⟩
  · exact ((of_decide_eq_true (List.mem_filter.mp ha).2).trans
      (of_decide_eq_true (List.mem_filter.mp hb).2).symm).le
  · rw [of_decide_eq_true (List.mem_filter.mp ha).2, of_decide_eq_true (List.mem_filter.mp hb).2]
    exact hk.le

theorem length_flat : (flat hosts).length =
    (shown (flat hosts)).length + (hosts.map Host.customerName).dedup.length := by
  have hks : ∀ ks : List String,
      (ks.flatMap fun k ↦ FlatItem.header k :: (hosts.filter (·.customerName = k)).map .host).length =
        (ks.flatMap fun k ↦ hosts.filter (·.customerName = k)).length + ks.length := by
    intro ks
    induction ks with
    | nil => rfl
    | cons k ks ih =>
      simp only [List.flatMap_cons, List.length_append, List.length_cons, List.length_map] at ih ⊢
      omega
  rw [shown_flat, flat, hks, customerOrder, sortOn, List.length_insertionSort]

theorem exists_flat_eq (hne : hosts ≠ []) : ∃ pre h, flat hosts = pre ++ [.host h] := by
  obtain ⟨a, ha⟩ := List.exists_mem_of_ne_nil _ hne
  rcases List.eq_nil_or_concat' (customerOrder hosts) with hnil | ⟨ks, k, hks⟩
  · have hmem := mem_customerOrder.mpr ⟨a, ha, rfl⟩
    rw [hnil] at hmem
    exact (List.not_mem_nil hmem).elim
  obtain ⟨b, hb, hbk⟩ : ∃ h ∈ hosts, h.customerName = k := mem_customerOrder.mp (by simp [hks])
  rcases List.eq_nil_or_concat' (hosts.filter (·.customerName = k)) with hnil | ⟨bs, h, hbs⟩
  · exact (List.filter_eq_nil_iff.mp hnil b hb (decide_eq_true hbk)).elim
  refine ⟨(ks.flatMap fun customer ↦ .header customer ::
    (hosts.filter (·.customerName = customer)).map .host) ++ .header k :: bs.map .host, h, ?_⟩
  simp [flat, hks, hbs]

theorem flat_ne (h : Host) : flat hosts ≠ .host h :: post := by
  unfold flat
  cases customerOrder hosts with
  | nil => simp
  | cons k ks => simp

/-! ## The rows -/

theorem rows_append : rows c i (pre ++ post) =
    rows c i pre ++ rows c (i + (shown pre).length) post := by
  induction pre generalizing i with
  | nil => rfl
  | cons item pre ih =>
    cases item with
    | header k => simp [rows, ih]
    | host h => simp [rows, ih, Nat.add_assoc, Nat.add_comm 1]

@[simp] theorem length_rows : (rows c i items).length = items.length := by
  induction items generalizing i with
  | nil => rfl
  | cons item items ih => cases item <;> simp [rows, ih]

theorem selected_rows (h : i + (shown items).length ≤ c ∨ c < i) :
    (rows c i items).filterMap Row.selected? = [] := by
  induction items generalizing i with
  | nil => rfl
  | cons item items ih =>
    cases item with
    | header k => simpa [rows, Row.selected?] using ih h
    | host a =>
      rw [shown_host, List.length_cons] at h
      have hne : ¬ i = c := by omega
      simpa [rows, Row.selected?, hne] using ih (i := i + 1) (by omega)

theorem exists_row (hmem : h ∈ shown items) : ∃ selected, .host h selected ∈ rows c i items := by
  induction items generalizing i with
  | nil => exact (List.not_mem_nil hmem).elim
  | cons item items ih =>
    cases item with
    | header k => exact (ih hmem).imp fun _ ↦ List.mem_cons_of_mem _
    | host a =>
      rcases List.mem_cons.mp hmem with rfl | hmem
      · exact ⟨_, List.mem_cons_self⟩
      · exact (ih hmem).imp fun _ ↦ List.mem_cons_of_mem _

/-- Before the highlighted row there are as many hosts as the cursor says. -/
theorem exists_of_selected (hsel : .host h true ∈ rows c i items) :
    ∃ pre post, items = pre ++ .host h :: post ∧ i + (shown pre).length = c := by
  induction items generalizing i with
  | nil => exact (List.not_mem_nil hsel).elim
  | cons item items ih =>
    cases item with
    | header k =>
      obtain ⟨pre, post, rfl, hc⟩ := ih (i := i) (by simpa [rows] using hsel)
      exact ⟨.header k :: pre, post, rfl, hc⟩
    | host a =>
      rcases List.mem_cons.mp hsel with he | hsel
      · obtain ⟨rfl, hi⟩ := Row.host.inj he
        exact ⟨[], items, rfl, of_decide_eq_true hi.symm⟩
      · obtain ⟨pre, post, rfl, hc⟩ := ih hsel
        refine ⟨.host a :: pre, post, rfl, ?_⟩
        rw [shown_host, List.length_cons]
        omega

theorem take_rows : (rows c i items).take n = rows c i (items.take n) := by
  induction items generalizing i n with
  | nil => simp [rows]
  | cons item items ih =>
    cases n with
    | zero => rfl
    | succ n => cases item <;> simp [rows, ih]

theorem hostFlatIdx_le (hn : n ≤ (shown pre).length) :
    (hostFlatIdx (pre ++ .host h :: post) n).getD 0 ≤ pre.length := by
  induction pre generalizing n with
  | nil => simp_all [hostFlatIdx]
  | cons item pre ih =>
    cases item with
    | header k =>
      have := ih (n := n) hn
      cases hidx : hostFlatIdx (pre ++ .host h :: post) n <;> simp_all [hostFlatIdx]
    | host a =>
      cases n with
      | zero => simp [hostFlatIdx]
      | succ n =>
        have := ih (n := n) (by simpa using hn)
        cases hidx : hostFlatIdx (pre ++ .host h :: post) n <;> simp_all [hostFlatIdx]

theorem exists_split (hn : n < (shown items).length) : ∃ pre h post,
    items = pre ++ .host h :: post ∧ (shown pre).length = n := by
  induction items generalizing n with
  | nil => exact (Nat.not_lt_zero _ hn).elim
  | cons item items ih =>
    cases item with
    | header k =>
      obtain ⟨pre, h, post, rfl, hpre⟩ := ih hn
      exact ⟨.header k :: pre, h, post, rfl, hpre⟩
    | host a =>
      cases n with
      | zero => exact ⟨[], a, items, rfl, rfl⟩
      | succ n =>
        obtain ⟨pre, h, post, rfl, hpre⟩ := ih (Nat.lt_of_succ_lt_succ hn)
        exact ⟨.host a :: pre, h, post, rfl, congrArg (· + 1) hpre⟩

/-! ## Runs -/

/-- The cursor is on a host, and not above the window. -/
def Inv (m : HostListModel) : Prop := m.visibleStart ≤ m.cursor ∧ m.cursor ≤ m.filtered.length - 1

theorem Inv.move (hm : Inv m) (k : Move) : Inv (m.move k) := by
  have hrows : 5 ≤ visibleRows m.height := le_max_left _ _
  obtain ⟨hstart, hcursor⟩ := id hm
  cases k with
  | up =>
    simp only [HostListModel.move]
    split
    · exact ⟨min_le_right _ _, (Nat.sub_le _ _).trans hcursor⟩
    · exact hm
  | down =>
    simp only [HostListModel.move]
    split
    · refine ⟨?_, by dsimp only; omega⟩
      dsimp only
      split <;> omega
    · exact hm
  | top => exact ⟨Nat.le_refl _, Nat.zero_le _⟩
  | bottom =>
    simp only [HostListModel.move]
    split
    · refine ⟨?_, Nat.le_refl _⟩
      dsimp only
      split <;> omega
    · exact hm

theorem Inv.update (hm : Inv m) (msg : Msg) : Inv (update toLower trimSpace m msg) := by
  cases msg with
  | windowSize | hostsErr | forceRefresh => exact hm
  | hostsLoaded => exact ⟨Nat.le_refl _, Nat.zero_le _⟩
  | reload =>
    simp only [HostList.update]
    split
    · exact ⟨Nat.le_refl _, Nat.zero_le _⟩
    · exact hm
  | move k =>
    simp only [HostList.update]
    split
    · exact hm.move k
    · exact hm
  | edit text =>
    simp only [HostList.update]
    split
    · refine ⟨Nat.zero_le _, ?_⟩
      dsimp only
      split <;> omega
    · exact hm

theorem inv_run (msgs : List Msg) : Inv (run toLower trimSpace msgs) := by
  induction msgs using List.reverseRecOn with
  | nil => exact ⟨Nat.le_refl _, Nat.le_refl _⟩
  | append_singleton msgs msg ih =>
    rw [run, List.foldl_append]
    exact ih.update msg

theorem exists_move_eq (k : Move) :
    ∃ cursor visibleStart, m.move k = { m with cursor, visibleStart } := by
  cases k with
  | up | down | bottom =>
    simp only [HostListModel.move]
    split
    · exact ⟨_, _, rfl⟩
    · exact ⟨m.cursor, m.visibleStart, rfl⟩
  | top => exact ⟨0, 0, rfl⟩

theorem exists_moves_eq (moves : List Move) (hm : Inv m) : Inv (moves.foldl .move m) ∧
    ∃ cursor visibleStart, moves.foldl .move m = { m with cursor, visibleStart } := by
  induction moves generalizing m with
  | nil => exact ⟨hm, m.cursor, m.visibleStart, rfl⟩
  | cons k moves ih =>
    obtain ⟨cursor, visibleStart, hk⟩ := exists_move_eq (m := m) k
    obtain ⟨hinv, cursor', visibleStart', he⟩ := ih (hm.move k)
    exact ⟨hinv, cursor', visibleStart', he.trans (by rw [hk])⟩

theorem foldl_down (hn : n < m.filtered.length) :
    (.top :: List.replicate n .down).foldl HostListModel.move m =
      { m with cursor := n, visibleStart := n + 1 - visibleRows m.height } := by
  have hrows : 5 ≤ visibleRows m.height := le_max_left _ _
  induction n with
  | zero => simp [HostListModel.move, show 1 - visibleRows m.height = 0 by omega]
  | succ n ih =>
    rw [List.replicate_succ', ← List.cons_append, List.foldl_append, ih (by omega)]
    simp only [List.foldl_cons, List.foldl_nil, HostListModel.move, if_pos hn]
    congr 1
    split <;> omega

theorem Fits.length_flat_le (hm : Fits m) : (flat m.filtered).length ≤ visibleRows m.height := by
  rw [length_flat, shown_flat_of_sorted hm.1]
  exact hm.2

theorem Fits.shows (hm : Fits m) (hinv : Inv m) (hready : m.state = .ready) (hne : m.filtered ≠ []) :
    ∃ h, (renderList m).filterMap Row.selected? = [h] ∧ enter m = some h := by
  have hshown := shown_flat_of_sorted hm.1
  have hlen := hm.length_flat_le
  have hcursor : m.cursor < (shown (flat m.filtered)).length := by
    rw [hshown]
    have := List.length_pos_iff.mpr hne
    have := hinv.2
    omega
  obtain ⟨pre, h, post, hflat, hpre⟩ := exists_split hcursor
  refine ⟨h, ?_, ?_⟩
  · have hfirst : firstFlatVisible m ≤ pre.length := by
      unfold firstFlatVisible
      split
      · rw [hflat]
        exact hostFlatIdx_le (hpre ▸ hinv.1)
      · exact Nat.zero_le _
    have habove : ((rows m.cursor 0 pre).drop (firstFlatVisible m)).filterMap Row.selected? = [] :=
      List.sublist_nil.mp <| ((List.drop_sublist _ _).filterMap _).trans
        (List.sublist_nil.mpr (selected_rows (Or.inl (by omega))))
    have hbelow : (rows m.cursor (m.cursor + 1) post).filterMap Row.selected? = [] :=
      selected_rows (Or.inr (Nat.lt_succ_self _))
    rw [renderList, List.take_of_length_le (by rw [List.length_drop, length_rows]; omega), hflat,
      rows_append, List.drop_append_of_le_length (length_rows.symm ▸ hfirst), List.filterMap_append,
      habove, hpre, Nat.zero_add]
    simpa [rows, Row.selected?] using hbelow
  · rw [enter, if_pos hready, ← hshown, hflat, shown_append, ← hpre]
    simp

theorem exists_of_shown (hsel : .host h true ∈ renderList m) : ∃ pre post,
    flat m.filtered = pre ++ .host h :: post ∧ (shown pre).length = m.cursor ∧
      (m.visibleStart = 0 → pre.length < visibleRows m.height) := by
  by_cases hstart : m.visibleStart = 0
  · rw [renderList, firstFlatVisible, if_neg (by omega), List.drop_zero, take_rows] at hsel
    obtain ⟨pre, post, htake, hpre⟩ := exists_of_selected hsel
    have hlen := (congrArg List.length htake).symm.trans_le (List.length_take_le _ _)
    rw [List.length_append, List.length_cons] at hlen
    refine ⟨pre, post ++ (flat m.filtered).drop (visibleRows m.height), ?_, by omega, fun _ ↦ by omega⟩
    rw [← List.cons_append, ← List.append_assoc, ← htake, List.take_append_drop]
  · obtain ⟨pre, post, hflat, hpre⟩ :=
      exists_of_selected (List.mem_of_mem_drop (List.mem_of_mem_take hsel))
    exact ⟨pre, post, hflat, by omega, fun hzero ↦ (hstart hzero).elim⟩

/-- If the first screen were too small, the cursor would leave it. -/
theorem fits_of_faithful (hne : m.filtered ≠ [])
    (hdown : ∀ n < m.filtered.length, ∃ pre h post, flat m.filtered = pre ++ .host h :: post ∧
      (shown pre).length = n ∧ m.filtered[n]? = some h ∧
        (n < visibleRows m.height → pre.length < visibleRows m.height)) : Fits m := by
  have hrows : 5 ≤ visibleRows m.height := le_max_left _ _
  have hpos := List.length_pos_iff.mpr hne
  have hprefix : m.filtered <+: shown (flat m.filtered) := by
    refine List.prefix_iff_getElem?.mpr fun n hn ↦ ?_
    obtain ⟨pre, h, post, hflat, hpre, hh, -⟩ := hdown n hn
    rw [← List.getElem?_eq_getElem hn, hh, hflat, shown_append, ← hpre]
    simp
  have hsorted := sorted_shown_flat.sublist hprefix.sublist
  have hshown := shown_flat_of_sorted hsorted
  refine ⟨hsorted, ?_⟩
  have hlen : (flat m.filtered).length = _ := length_flat
  rw [hshown] at hlen
  rw [← hlen]
  obtain ⟨pre, h, post, hflat, hpre, -, hrow⟩ :=
    hdown (min m.filtered.length (visibleRows m.height) - 1) (by omega)
  have hrow := hrow (by omega)
  rcases le_or_gt m.filtered.length (visibleRows m.height) with hle | hlt
  · obtain ⟨pre', h', hflat'⟩ := exists_flat_eq hne
    have hcount := congrArg (List.length ∘ shown) hflat'
    simp only [Function.comp_apply, hshown, shown_append, shown_host, shown_nil, List.length_append,
      List.length_singleton] at hcount
    have hle' : pre'.length ≤ pre.length := by
      by_contra hgt
      have hstart : pre ++ [.host h] <+: flat m.filtered := ⟨post, by simp [hflat]⟩
      have hpre' : pre ++ [.host h] <+: pre' :=
        List.prefix_of_prefix_length_le hstart ⟨[.host h'], hflat'.symm⟩ (by simpa using by omega)
      have := (hpre'.sublist.filterMap FlatItem.host?).length_le
      change (shown _).length ≤ (shown _).length at this
      simp only [shown_append, shown_host, shown_nil, List.length_append, List.length_singleton] at this
      omega
    rw [hflat', List.length_append, List.length_singleton]
    omega
  · cases pre with
    | nil => exact (flat_ne h hflat).elim
    | cons item pre =>
      cases item with
      | host a => exact (flat_ne a hflat).elim
      | header k =>
        have : (shown pre).length ≤ pre.length := List.length_filterMap_le _ _
        rw [shown_header] at hpre
        rw [List.length_cons] at hrow
        omega

/-- **Enter opens the highlighted host, wherever the cursor goes, just when the customers come in
order and everything fits on the screen.** -/
theorem enter_opens_highlighted_iff (msgs : List Msg) :
    (∀ moves : List Move, Faithful (moves.foldl .move (run toLower trimSpace msgs))) ↔
      ((run toLower trimSpace msgs).state = .ready → (run toLower trimSpace msgs).filtered ≠ [] →
        Fits (run toLower trimSpace msgs)) := by
  have hinv : Inv (run toLower trimSpace msgs) := inv_run msgs
  generalize run toLower trimSpace msgs = m at hinv ⊢
  refine ⟨fun h hready hne ↦ ?_, fun h moves hready hne ↦ ?_⟩
  · refine fits_of_faithful hne fun n hn ↦ ?_
    obtain ⟨⟨a, hsel, henter⟩, -⟩ := h (.top :: List.replicate n .down) (by rwa [foldl_down hn])
      (by rwa [foldl_down hn])
    rw [foldl_down hn] at hsel henter
    obtain ⟨row, hrow, ha⟩ := List.mem_filterMap.mp (hsel ▸ List.mem_singleton_self a)
    obtain rfl : row = .host a true := by
      unfold Row.selected? at ha
      split at ha <;> simp_all
    obtain ⟨pre, post, hflat, hpre, hstart⟩ := exists_of_shown hrow
    exact ⟨pre, a, post, hflat, hpre, by rwa [enter, if_pos hready] at henter, fun hlt ↦
      hstart (Nat.sub_eq_zero_of_le hlt)⟩
  · obtain ⟨hinv', cursor, visibleStart, he⟩ := exists_moves_eq moves hinv
    rw [he] at hready hne hinv' ⊢
    have hfits : Fits m := h hready hne
    refine ⟨Fits.shows hfits hinv' hready hne, fun a ha ↦ ⟨0, ?_⟩⟩
    obtain ⟨selected, hrow⟩ := exists_row (c := 0) (i := 0) ((shown_flat_of_sorted hfits.1).symm ▸ ha)
    refine ⟨selected, ?_⟩
    change _ ∈ ((rows 0 0 (flat m.filtered)).drop 0).take (visibleRows m.height)
    rwa [List.drop_zero, List.take_of_length_le (length_rows.trans_le hfits.length_flat_le)]

end

def hostOf (customerName : String) : Host where
  id := customerName
  name := customerName
  hostname := customerName
  port := 22
  environment := "dev"
  customerName := customerName
  customerId := customerName
  principal := "root"
  accessStatus := "direct"

/-- The host of `beta` comes first; the one of `acme` is highlighted, and Enter opens the other. -/
theorem first_is_not_first : ∃ msgs, ¬ Faithful (run id id msgs) := by
  refine ⟨[.hostsLoaded [hostOf "beta", hostOf "acme"]], fun h ↦ ?_⟩
  obtain ⟨⟨a, hsel, henter⟩, -⟩ := h rfl (List.cons_ne_nil _ _)
  have hacme : ((renderList (run id id [.hostsLoaded [hostOf "beta", hostOf "acme"]])).filterMap
      Row.selected?).map Host.id = ["acme"] := by decide
  rw [hsel] at hacme
  obtain rfl : hostOf "beta" = a := Option.some.inj henter
  exact absurd hacme (by decide)

end Shellius.Cli.HostList
