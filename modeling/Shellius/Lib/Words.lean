import Mathlib.Data.List.DropRight
import Mathlib.Tactic.TypeStar

/-!
# The words of a text

To normalise a text is to keep its *words*, the maximal stretches of elements
that pass a test, and to set one separator between two of them.  Programs do so
in two passes: `squeeze` replaces every stretch of other elements by a
separator, and the separators at both ends are trimmed away.  `trim_squeeze`
says that the two passes together join the words.
-/

namespace Shellius.Lib

open List

section

variable {α : Type*} {keep : α → Bool} {sep : α}

/-- The maximal stretches of elements that pass the test. -/
def words (keep : α → Bool) (l : List α) : List (List α) :=
  (l.splitOnP fun a ↦ !keep a).filter fun w ↦ w ≠ []

/-- Replace every maximal stretch of other elements by one separator; the flag
says that the stretch at hand has its separator already. -/
def squeeze (keep : α → Bool) (sep : α) : Bool → List α → List α
  | _, [] => []
  | inRun, a :: l =>
    if keep a then a :: squeeze keep sep false l
    else if inRun then squeeze keep sep true l
    else sep :: squeeze keep sep true l

/-- A first stretch, possibly empty, with the words that follow it. -/
def headed (sep : α) (w : List α) (ws : List (List α)) : List α :=
  if ws = [] then w else w ++ sep :: [sep].intercalate ws

theorem rdropWhile_cons_of_not {p : α → Bool} {a : α} (l : List α) (h : p a = false) :
    (a :: l).rdropWhile p = a :: l.rdropWhile p := by
  induction l using List.reverseRecOn with
  | nil => simp [rdropWhile_singleton, h]
  | append_singleton l b ih =>
    rw [← List.cons_append, rdropWhile_concat, rdropWhile_concat, ih]
    split <;> rfl

theorem rdropWhile_cons_of_pos {p : α → Bool} {a : α} (l : List α) (h : p a = true) :
    (a :: l).rdropWhile p = if l.rdropWhile p = [] then [] else a :: l.rdropWhile p := by
  induction l using List.reverseRecOn with
  | nil => simp [rdropWhile_singleton, h]
  | append_singleton l b ih =>
    rw [← List.cons_append, rdropWhile_concat, rdropWhile_concat, ih]
    by_cases hb : p b
    · rw [if_pos hb, if_pos hb]
    · rw [if_neg hb, if_neg hb, if_neg (by simp)]; rfl

theorem headed_cons (a : α) (w : List α) (ws : List (List α)) :
    headed sep (a :: w) ws = a :: headed sep w ws := by
  unfold headed
  split <;> rfl

theorem intercalate_cons (w : List α) (ws : List (List α)) :
    [sep].intercalate (w :: ws) = headed sep w ws := by
  cases ws with
  | nil => simp [headed]
  | cons v vs => simp [headed, List.intercalate_cons_cons]

theorem intercalate_eq_nil {ws : List (List α)} (h : ∀ w ∈ ws, w ≠ []) :
    [sep].intercalate ws = [] ↔ ws = [] := by
  cases ws with
  | nil => simp
  | cons w ws =>
    rw [intercalate_cons, headed]
    split <;> simp [h w (by simp)]

theorem ne_nil_of_mem_words {l w : List α} (h : w ∈ words keep l) : w ≠ [] := by
  simpa using (List.mem_filter.mp h).2

theorem keep_of_mem_words {l w : List α} (hw : w ∈ words keep l) : ∀ a ∈ w, keep a = true := by
  suffices h : ∀ w ∈ l.splitOnP fun a ↦ !keep a, ∀ a ∈ w, keep a = true from
    h w (List.mem_filter.mp hw).1
  clear hw w
  induction l with
  | nil => simp
  | cons a l ih =>
    intro w hw
    rw [List.splitOnP_cons_eq_if_modifyHead] at hw
    split at hw
    · obtain rfl | hw := List.mem_cons.mp hw
      · simp
      · exact ih w hw
    · rename_i ha
      obtain ⟨v, vs, hs⟩ := List.exists_cons_of_ne_nil (List.splitOnP_ne_nil (fun a ↦ !keep a) l)
      rw [hs, List.modifyHead_cons] at hw
      obtain rfl | hw := List.mem_cons.mp hw
      · intro b hb
        obtain rfl | hb := List.mem_cons.mp hb
        · simpa using ha
        · exact ih v (by simp [hs]) b hb
      · exact ih w (by simp [hs, hw])

theorem mem_intercalate {ws : List (List α)} {a : α} (h : a ∈ [sep].intercalate ws) :
    a = sep ∨ ∃ w ∈ ws, a ∈ w := by
  induction ws with
  | nil => simp at h
  | cons w ws ih =>
    rw [intercalate_cons, headed] at h
    split at h
    · exact .inr ⟨w, by simp, h⟩
    · obtain h | h := List.mem_append.mp h
      · exact .inr ⟨w, by simp, h⟩
      · obtain rfl | h := List.mem_cons.mp h
        · exact .inl rfl
        · exact (ih h).imp_right fun ⟨v, hv, ha⟩ ↦ ⟨v, List.mem_cons_of_mem _ hv, ha⟩

/-! ## Squeezing -/

variable [DecidableEq α]

/-- Drop the separators at both ends. -/
def trim (sep : α) (l : List α) : List α :=
  (l.dropWhile fun a ↦ a = sep).rdropWhile fun a ↦ a = sep

theorem rtrim_squeeze (hsep : keep sep = false) (l : List α) :
    (∀ w ws, l.splitOnP (fun a ↦ !keep a) = w :: ws →
      (squeeze keep sep false l).rdropWhile (fun a ↦ a = sep) =
        headed sep w (ws.filter fun w ↦ w ≠ [])) ∧
    (squeeze keep sep true l).rdropWhile (fun a ↦ a = sep) = [sep].intercalate (words keep l) := by
  induction l with
  | nil =>
    refine ⟨fun w ws h ↦ ?_, by simp [squeeze, words]⟩
    obtain ⟨rfl, rfl⟩ := List.cons.inj (by simpa using h)
    simp [squeeze, headed]
  | cons a l ih =>
    obtain ⟨ihw, ihb⟩ := ih
    obtain ⟨w', ws', hs⟩ := List.exists_cons_of_ne_nil
      (List.splitOnP_ne_nil (fun a ↦ !keep a) l)
    by_cases ha : keep a
    · have hne : decide (a = sep) = false := by
        rw [decide_eq_false_iff_not]
        rintro rfl
        simp [hsep] at ha
      have hsplit : (a :: l).splitOnP (fun a ↦ !keep a) = (a :: w') :: ws' := by
        simp [List.splitOnP_cons_eq_if_modifyHead, ha, hs]
      have hkey : (a :: squeeze keep sep false l).rdropWhile (fun a ↦ a = sep) =
          headed sep (a :: w') (ws'.filter fun w ↦ w ≠ []) := by
        rw [rdropWhile_cons_of_not (p := fun a ↦ decide (a = sep)) _ hne, ihw w' ws' hs,
          headed_cons]
      refine ⟨fun w ws h ↦ ?_, ?_⟩
      · obtain ⟨rfl, rfl⟩ := List.cons.inj (hsplit.symm.trans h)
        simpa [squeeze, ha] using hkey
      · rw [squeeze, if_pos ha, hkey, words, hsplit, List.filter_cons_of_pos (by simp),
          intercalate_cons]
    · have hsplit : (a :: l).splitOnP (fun a ↦ !keep a) = [] :: l.splitOnP fun a ↦ !keep a := by
        simp [List.splitOnP_cons_eq_if_modifyHead, ha]
      have hwords : words keep (a :: l) = words keep l := by simp [words, hsplit]
      refine ⟨fun w ws h ↦ ?_, ?_⟩
      · obtain ⟨rfl, rfl⟩ := List.cons.inj (hsplit.symm.trans h)
        have hw : (l.splitOnP fun a ↦ !keep a).filter (fun w ↦ w ≠ []) = words keep l := rfl
        rw [squeeze, if_neg ha, if_neg (by simp), rdropWhile_cons_of_pos _ (by simp), ihb, hw,
          headed]
        simp only [intercalate_eq_nil fun _ ↦ ne_nil_of_mem_words, List.nil_append]
      · rw [squeeze, if_neg ha, if_pos rfl, ihb, hwords]

theorem dropWhile_squeeze (hsep : keep sep = false) (l : List α) :
    (squeeze keep sep true l).dropWhile (fun a ↦ a = sep) = squeeze keep sep true l ∧
    (squeeze keep sep false l).dropWhile (fun a ↦ a = sep) = squeeze keep sep true l := by
  induction l with
  | nil => simp [squeeze]
  | cons a l ih =>
    by_cases ha : keep a
    · have hne : a ≠ sep := by rintro rfl; simp [hsep] at ha
      simp [squeeze, ha, hne]
    · simp [squeeze, ha, ih.1]

theorem trim_squeeze (hsep : keep sep = false) (l : List α) :
    trim sep (squeeze keep sep false l) = [sep].intercalate (words keep l) := by
  rw [trim, (dropWhile_squeeze hsep l).2, (rtrim_squeeze hsep l).2]

end

/-! ## Texts joined by a separator -/

theorem splitOn_intercalate_eq_flatMap {α : Type*} [BEq α] [LawfulBEq α] (sep : α)
    {ls : List (List α)} (h : ls ≠ []) :
    ([sep].intercalate ls).splitOn sep = ls.flatMap fun l ↦ l.splitOn sep := by
  induction ls with
  | nil => exact absurd rfl h
  | cons l ls ih =>
    cases ls with
    | nil => simp
    | cons l' ls =>
      rw [intercalate_cons_cons, append_assoc, singleton_append, splitOn_append_cons_self,
        ih (by simp)]
      rfl

end Shellius.Lib
