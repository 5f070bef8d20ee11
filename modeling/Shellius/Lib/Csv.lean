import Mathlib.Tactic.Common
import Shellius.Lib.Words

/-!
# Reading comma-separated values

A reader in the manner of RFC 4180 that takes CR, LF and CRLF for the end of a record, as a machine
that sees one character after the other.  `parse_lines` is the round trip: what is written with a
comma between cells and LF behind each line is read back, if each cell is in quotes or has nothing
in it that ends one (`Written`).  A CR outside quotes ends a record and is lost (`count_lt_of_bare`).
-/

namespace Shellius.Lib.Csv

/-- Where in a cell the reader is: `closed` is behind a quote that may be the last one. -/
inductive Mode where
  | start | plain | quoted | closed
deriving DecidableEq

/-- The reader, with what it has read.  After CR a LF belongs to the same end. -/
structure Reader where
  mode : Mode := .start
  cell : List Char := []
  record : List (List Char) := []
  records : List (List (List Char)) := []
  afterCR : Bool := false

namespace Reader

variable (r : Reader)

def put (mode : Mode) (c : Char) : Reader :=
  { r with mode, cell := r.cell ++ [c], afterCR := false }

def endCell : Reader :=
  { r with mode := .start, cell := [], record := r.record ++ [r.cell], afterCR := false }

def endRecord (afterCR : Bool) : Reader :=
  { records := r.records ++ [r.record ++ [r.cell]], afterCR }

/-- One character; `none` if it may not stand there. -/
def step (c : Char) : Option Reader :=
  if r.afterCR ∧ c = '\n' then some { r with afterCR := false }
  else if r.mode = .quoted then
    some (if c = '\x22' then { r with mode := .closed, afterCR := false } else r.put .quoted c)
  else if c = ',' then some r.endCell
  else if c = '\n' then some (r.endRecord false)
  else if c = '\r' then some (r.endRecord true)
  else if c = '\x22' then
    match r.mode with
    | .start => some { r with mode := .quoted, afterCR := false }
    | .closed => some (r.put .quoted c)
    | _ => none
  else if r.mode = .closed then none
  else some (r.put .plain c)

def run (r : Reader) (cs : List Char) : Option Reader := cs.foldlM step r

/-- At the end of the text an unfinished record is finished. -/
def finish : Option (List (List (List Char))) :=
  if r.mode = .quoted then none
  else if r.mode = .start ∧ r.record = [] then some r.records
  else some (r.endRecord false).records

end Reader

/-- The records of a text. -/
def parse (cs : List Char) : Option (List (List (List Char))) := (Reader.run {} cs).bind Reader.finish

/-- A cell in quotes. -/
def quote (cs : List Char) : List Char :=
  '\x22' :: (cs.flatMap fun c ↦ if c = '\x22' then ['\x22', '\x22'] else [c]) ++ ['\x22']

/-- A character that does not end a cell. -/
def isBare (c : Char) : Bool := c ≠ ',' ∧ c ≠ '\x22' ∧ c ≠ '\n' ∧ c ≠ '\r'

/-- A text that stands for a value. -/
def Written (text value : List Char) : Prop :=
  text = quote value ∨ text = value ∧ value.all isBare = true

/-- A text with a CR that ends a record. -/
def Broken (text : List Char) : Prop :=
  ∃ u w, text = u ++ '\r' :: w ∧ u.all isBare = true

/-- Lines of cells. -/
def lines {β : Type*} (write : β → List Char) (ls : List (List β)) : List Char :=
  ls.flatMap fun line ↦ [','].intercalate (line.map write) ++ ['\n']

theorem intercalate_concat {α : Type*} {sep : α} {ws : List (List α)} (h : ws ≠ []) :
    [sep].intercalate ws ++ [sep] = ws.flatMap (· ++ [sep]) := by
  induction ws with
  | nil => exact absurd rfl h
  | cons w ws ih =>
    rw [intercalate_cons, headed, List.flatMap_cons]
    split
    · rename_i hnil
      rw [hnil, List.flatMap_nil, List.append_nil]
    · rename_i hne
      rw [← ih hne, List.append_assoc, List.append_assoc, List.cons_append, List.singleton_append]

example : parse "a,\"b\"\"\r\"\r\nc,\n".toList = some [[['a'], ['b', '\x22', '\r']], [['c'], []]] := by
  decide +kernel

/-! ## What is read -/

section

variable {r r' : Reader} {cs ds text value : List Char} {c : Char} {record : List (List Char)}
  {records : List (List (List Char))}

theorem run_append : Reader.run r (cs ++ ds) = (Reader.run r cs).bind fun r ↦ r.run ds :=
  List.foldlM_append

theorem run_cons : Reader.run r (c :: cs) = (r.step c).bind fun r ↦ r.run cs := List.foldlM_cons

/-- At the start of a cell. -/
abbrev atCell (record : List (List Char)) (records : List (List (List Char))) : Reader :=
  { record, records }

theorem step_bare (hmode : r.mode = .start ∨ r.mode = .plain) (hcr : r.afterCR = false)
    (hc : isBare c = true) : r.step c = some (r.put .plain c) := by
  obtain ⟨h1, h2, h3, h4⟩ := of_decide_eq_true hc
  rcases hmode with hmode | hmode <;> simp [Reader.step, hmode, hcr, h1, h2, h3, h4]

theorem run_bare (hmode : r.mode = .start ∨ r.mode = .plain) (hcr : r.afterCR = false)
    (hcs : cs.all isBare = true) : ∃ mode, (mode = .start ∨ mode = .plain) ∧
      r.run cs = some { r with mode, cell := r.cell ++ cs } := by
  induction cs generalizing r with
  | nil => exact ⟨r.mode, hmode, by rw [List.append_nil]; rfl⟩
  | cons c cs ih =>
    rw [List.all_cons, Bool.and_eq_true] at hcs
    obtain ⟨mode, hm, hrun⟩ := ih (r := r.put .plain c) (.inr rfl) rfl hcs.2
    refine ⟨mode, hm, ?_⟩
    rw [run_cons, step_bare hmode hcr hcs.1, Option.bind_some, hrun]
    simp [Reader.put, hcr]

theorem run_doubled (hmode : r.mode = .quoted) (hcr : r.afterCR = false) :
    r.run (cs.flatMap fun c ↦ if c = '\x22' then ['\x22', '\x22'] else [c]) =
      some { r with cell := r.cell ++ cs } := by
  induction cs generalizing r with
  | nil => rw [List.append_nil]; rfl
  | cons c cs ih =>
    rw [List.flatMap_cons, run_append]
    have hc : r.run (if c = '\x22' then ['\x22', '\x22'] else [c]) = some (r.put .quoted c) := by
      split
      · rename_i hquote
        simp [run_cons, Reader.step, hmode, hcr, hquote, Reader.run, Reader.put]
      · rename_i hquote
        simp [run_cons, Reader.step, hmode, hcr, hquote, Reader.run, Reader.put]
    rw [hc, Option.bind_some, ih rfl rfl]
    simp [Reader.put, hmode, hcr]

theorem run_written (record : List (List Char)) (records : List (List (List Char)))
    (h : Written text value) : ∃ mode, mode ≠ .quoted ∧
    (atCell record records).run text = some { atCell record records with mode, cell := value } := by
  rcases h with rfl | ⟨rfl, hbare⟩
  · refine ⟨.closed, Mode.noConfusion, ?_⟩
    have hopen : (atCell record records).step '\x22' =
        some { atCell record records with mode := .quoted } := rfl
    rw [quote, List.cons_append, run_cons, hopen, Option.bind_some, run_append,
      run_doubled rfl rfl, Option.bind_some]
    rfl
  · obtain ⟨mode, hm, hrun⟩ := run_bare (r := atCell record records) (.inl rfl) rfl hbare
    refine ⟨mode, ?_, hrun⟩
    rcases hm with rfl | rfl <;> exact Mode.noConfusion

theorem run_cell (record : List (List Char)) (records : List (List (List Char)))
    (h : Written text value) : (atCell record records).run (text ++ [',']) =
    some (atCell (record ++ [value]) records) := by
  obtain ⟨mode, hm, hrun⟩ := run_written record records h
  rw [run_append, hrun, Option.bind_some]
  cases mode <;> first | exact absurd rfl hm | rfl

theorem run_last (h : Written text value) : (atCell record records).run (text ++ ['\n']) =
    some (atCell [] (records ++ [record ++ [value]])) := by
  obtain ⟨mode, hm, hrun⟩ := run_written record records h
  rw [run_append, hrun, Option.bind_some]
  cases mode <;> first | exact absurd rfl hm | rfl

end

/-! ## Lines -/

section

variable {β : Type*} {write value : β → List Char} {line : List β} {ls : List (List β)}
  {record : List (List Char)} {records : List (List (List Char))}

theorem run_line (record : List (List Char)) (records : List (List (List Char))) (hne : line ≠ []) (h : ∀ b ∈ line, Written (write b) (value b)) :
    (atCell record records).run ([','].intercalate (line.map write) ++ ['
']) =
      some (atCell [] (records ++ [record ++ line.map value])) := by
  induction line generalizing record with
  | nil => exact absurd rfl hne
  | cons b line ih =>
    rw [List.forall_mem_cons] at h
    rw [List.map_cons, intercalate_cons, headed]
    split
    · rename_i hnil
      rw [run_last h.1, List.map_eq_nil_iff.mp hnil]
      rfl
    · rename_i hline
      rw [List.append_assoc, List.cons_append, ← List.singleton_append, ← List.append_assoc,
        run_append, run_cell _ _ h.1, Option.bind_some,
        ih _ (fun hnil ↦ hline (List.map_eq_nil_iff.mpr hnil)) h.2, List.append_assoc]
      rfl

/-- **What is written is read back.** -/
theorem parse_lines (h : ∀ line ∈ ls, line ≠ [] ∧ ∀ b ∈ line, Written (write b) (value b)) :
    parse (lines write ls) = some (ls.map fun line ↦ line.map value) := by
  have hrun : ∀ records, (atCell [] records).run (lines write ls) =
      some (atCell [] (records ++ ls.map fun line ↦ line.map value)) := by
    induction ls with
    | nil => intro records; rw [List.map_nil, List.append_nil]; rfl
    | cons line ls ih =>
      intro records
      rw [List.forall_mem_cons] at h
      rw [lines, List.flatMap_cons, run_append, run_line _ _ h.1.1 h.1.2, Option.bind_some]
      refine (ih h.2 _).trans ?_
      rw [List.append_assoc]
      rfl
  exact (congrArg (Option.bind · Reader.finish) (hrun [])).trans rfl

end

/-! ## What is lost -/

section

variable {r r' : Reader} {cs ds text : List Char} {c : Char} {recs : List (List (List Char))}

/-- How many CR there are in records. -/
def countCR (recs : List (List (List Char))) : Nat := (recs.flatten.flatten).count '\r'

theorem count_quote : (quote cs).count '\r' = cs.count '\r' := by
  rw [quote, List.count_append, List.count_cons_of_ne (by decide)]
  induction cs with
  | nil => rfl
  | cons c cs ih =>
    have hc : (if c = '\x22' then ['\x22', '\x22'] else [c]).count '\r' = [c].count '\r' := by
      split
      · rename_i heq
        rw [heq]
        rfl
      · rfl
    rw [List.flatMap_cons, List.count_append, Nat.add_assoc, ih, hc, ← List.count_append]
    rfl

theorem count_lines {write : List Char → List Char} {ls : List (List (List Char))}
    (h : ∀ v, (write v).count '\r' = v.count '\r') : (lines write ls).count '\r' = countCR ls := by
  have hline : ∀ line : List (List Char),
      ([','].intercalate (line.map write)).count '\r' = line.flatten.count '\r' := by
    intro line
    induction line with
    | nil => rfl
    | cons v line ih =>
      rw [List.map_cons, intercalate_cons, headed, List.flatten_cons, List.count_append, ← h v]
      split
      · rename_i hnil
        rw [List.map_eq_nil_iff.mp hnil]
        exact (Nat.add_zero _).symm
      · rw [List.count_append, List.count_cons_of_ne (by decide), ih]
  unfold lines countCR
  induction ls with
  | nil => rfl
  | cons line ls ih =>
    rw [List.flatMap_cons, List.flatten_cons, List.flatten_append, List.count_append,
      List.count_append, List.count_append, hline, ih]
    rfl

/-- How many CR a reader has kept. -/
def Reader.kept (r : Reader) : Nat := countCR r.records + (r.record.flatten ++ r.cell).count '\r'

theorem kept_put (mode : Mode) : (r.put mode c).kept = r.kept + [c].count '\r' := by
  simp only [Reader.kept, Reader.put, List.count_append]
  omega

theorem kept_endCell : r.endCell.kept = r.kept := by
  simp [Reader.kept, Reader.endCell, List.count_append]

theorem kept_endRecord (afterCR : Bool) : (r.endRecord afterCR).kept = r.kept := by
  simp [Reader.kept, Reader.endRecord, countCR, List.count_append]

theorem kept_step (h : r.step c = some r') : r'.kept ≤ r.kept + [c].count '\r' := by
  unfold Reader.step at h
  split_ifs at h
  · obtain rfl := Option.some.inj h
    exact Nat.le_add_right ..
  · obtain rfl := Option.some.inj h
    exact Nat.le_add_right ..
  · obtain rfl := Option.some.inj h
    exact Nat.le_of_eq (kept_put _)
  · obtain rfl := Option.some.inj h
    exact Nat.le_trans (Nat.le_of_eq kept_endCell) (Nat.le_add_right ..)
  · obtain rfl := Option.some.inj h
    exact Nat.le_trans (Nat.le_of_eq (kept_endRecord _)) (Nat.le_add_right ..)
  · obtain rfl := Option.some.inj h
    exact Nat.le_trans (Nat.le_of_eq (kept_endRecord _)) (Nat.le_add_right ..)
  · split at h
    · obtain rfl := Option.some.inj h
      exact Nat.le_add_right ..
    · obtain rfl := Option.some.inj h
      exact Nat.le_of_eq (kept_put _)
    · cases h
  · obtain rfl := Option.some.inj h
    exact Nat.le_of_eq (kept_put _)

theorem kept_run (h : r.run cs = some r') : r'.kept ≤ r.kept + cs.count '\r' := by
  induction cs generalizing r with
  | nil => exact Nat.le_of_eq (congrArg Reader.kept (Option.some.inj h).symm)
  | cons c cs ih =>
    rw [run_cons] at h
    obtain ⟨r₁, hstep, hrun⟩ := Option.bind_eq_some_iff.mp h
    have h₁ := kept_step hstep
    have h₂ := ih hrun
    rw [← List.singleton_append, List.count_append]
    omega

theorem kept_finish (h : r.finish = some recs) : countCR recs ≤ r.kept := by
  unfold Reader.finish at h
  split_ifs at h
  · obtain rfl := Option.some.inj h
    exact Nat.le_add_right ..
  · obtain rfl := Option.some.inj h
    have hkept := kept_endRecord (r := r) false
    rw [Reader.kept] at hkept
    omega

theorem kept_broken {record : List (List Char)} {records : List (List (List Char))}
    (hb : Broken text) (h : (atCell record records).run (text ++ ds) = some r') :
    r'.kept < (atCell record records).kept + (text ++ ds).count '\r' := by
  obtain ⟨u, w, rfl, hu⟩ := hb
  obtain ⟨mode, hm, hrun⟩ := run_bare (r := atCell record records) (.inl rfl) rfl hu
  rw [List.append_assoc, run_append, hrun, Option.bind_some, List.cons_append, run_cons] at h
  have hstep : ({ atCell record records with mode, cell := u } : Reader).step '\r' =
      some (({ atCell record records with mode, cell := u } : Reader).endRecord true) := by
    rcases hm with rfl | rfl <;> rfl
  rw [List.nil_append, hstep, Option.bind_some] at h
  have hrest := kept_run h
  rw [kept_endRecord] at hrest
  simp only [Reader.kept, List.count_append, List.count_cons_self, List.append_nil] at hrest ⊢
  omega

section

variable {β : Type*} {write value : β → List Char} {line : List β} {ls : List (List β)}
  {record : List (List Char)} {records : List (List (List Char))}

theorem kept_line (h : ∀ b ∈ line, Written (write b) (value b) ∨ Broken (write b))
    (hb : ∃ b ∈ line, Broken (write b))
    (hrun : (atCell record records).run ([','].intercalate (line.map write) ++ ds) = some r') :
    r'.kept < (atCell record records).kept +
      ([','].intercalate (line.map write) ++ ds).count '\r' := by
  induction line generalizing record with
  | nil =>
    obtain ⟨b, hmem, -⟩ := hb
    cases hmem
  | cons b line ih =>
    rw [List.forall_mem_cons] at h
    rw [List.map_cons, intercalate_cons, headed] at hrun ⊢
    split at hrun
    · rename_i hnil
      obtain rfl := List.map_eq_nil_iff.mp hnil
      obtain ⟨b', hmem, hb⟩ := hb
      obtain rfl := List.mem_singleton.mp hmem
      rw [if_pos hnil]
      exact kept_broken hb hrun
    · rename_i hline
      rw [if_neg hline]
      rw [List.append_assoc] at hrun ⊢
      rcases h.1 with hw | hbroken
      · by_cases hbroken : Broken (write b)
        · exact kept_broken hbroken hrun
        · obtain ⟨b', hmem, hb⟩ := hb
          have hmem := (List.mem_cons.mp hmem).resolve_left fun heq ↦ hbroken (heq ▸ hb)
          rw [List.cons_append, ← List.singleton_append, ← List.append_assoc] at hrun ⊢
          have hcell := run_cell record records hw
          have hle := kept_run hcell
          rw [run_append, hcell, Option.bind_some] at hrun
          have hlt := ih h.2 ⟨b', hmem, hb⟩ hrun
          rw [List.count_append]
          omega
      · exact kept_broken hbroken hrun

/-- **If a CR ends a record, what is read has fewer of them than what was written.** -/
theorem count_lt_of_broken
    (h : ∀ line ∈ ls, line ≠ [] ∧ ∀ b ∈ line, Written (write b) (value b) ∨ Broken (write b))
    (hb : ∃ line ∈ ls, ∃ b ∈ line, Broken (write b)) (hparse : parse (lines write ls) = some recs) :
    countCR recs < (lines write ls).count '\r' := by
  have hlt : ∀ records r', (atCell [] records).run (lines write ls) = some r' →
      r'.kept < (atCell [] records).kept + (lines write ls).count '\r' := by
    clear hparse
    induction ls with
    | nil =>
      obtain ⟨line, hmem, -⟩ := hb
      cases hmem
    | cons line ls ih =>
      intro records r' hrun
      rw [List.forall_mem_cons] at h
      rw [lines, List.flatMap_cons] at hrun ⊢
      by_cases hline : ∃ b ∈ line, Broken (write b)
      · rw [List.append_assoc] at hrun ⊢
        exact kept_line h.1.2 hline hrun
      · have hw : ∀ b ∈ line, Written (write b) (value b) := fun b hmem ↦
          (h.1.2 b hmem).resolve_right fun hbroken ↦ hline ⟨b, hmem, hbroken⟩
        have hfirst := run_line [] records h.1.1 hw
        have hle := kept_run hfirst
        rw [run_append, hfirst, Option.bind_some] at hrun
        obtain ⟨line', hmem, hb⟩ := hb
        have hmem := (List.mem_cons.mp hmem).resolve_left fun heq ↦ hline (heq ▸ hb)
        have hrest := ih h.2 ⟨line', hmem, hb⟩ _ r' hrun
        rw [lines] at hrest
        rw [List.count_append]
        omega
  obtain ⟨r', hrun, hfinish⟩ := Option.bind_eq_some_iff.mp hparse
  have hkept := kept_finish hfinish
  have hrest := hlt [] r' hrun
  rw [show (atCell [] []).kept = 0 from rfl] at hrest
  omega

end

end

end Shellius.Lib.Csv
