import Mathlib.Algebra.GroupWithZero.Nat
import Mathlib.Data.String.Basic

/-!
# Strings

What the services use of `String.prototype`.
-/

namespace Shellius

/-- A string as JavaScript tests it: the empty string counts as absent. -/
def truthy : Option String → Option String
  | some s => if s = "" then none else some s
  | none => none

@[simp] theorem truthy_none : truthy none = none := rfl

theorem truthy_eq_some {o : Option String} {s : String} :
    truthy o = some s ↔ o = some s ∧ s ≠ "" := by
  cases o with
  | none => simp
  | some t =>
    simp only [truthy, Option.some.injEq]
    split
    · rename_i h; subst h; simp [eq_comm]
    · rename_i h
      exact ⟨fun he ↦ ⟨Option.some.inj he, Option.some.inj he ▸ h⟩, fun he ↦ by rw [he.1]⟩

@[simp] theorem truthy_truthy (o : Option String) : truthy (truthy o) = truthy o := by
  rcases h : truthy o with _ | s
  · rfl
  · exact truthy_eq_some.mpr ⟨rfl, (truthy_eq_some.mp h).2⟩

/-- A character that `trim` removes. -/
def isSpace (c : Char) : Bool :=
  c.val = 0x20 ∨ (0x09 ≤ c.val ∧ c.val ≤ 0x0d) ∨ c.val = 0xa0 ∨ c.val = 0x1680 ∨
    (0x2000 ≤ c.val ∧ c.val ≤ 0x200a) ∨ c.val = 0x2028 ∨ c.val = 0x2029 ∨ c.val = 0x202f ∨
    c.val = 0x205f ∨ c.val = 0x3000 ∨ c.val = 0xfeff

def trim (s : String) : String :=
  String.ofList ((((s.toList.dropWhile isSpace).reverse).dropWhile isSpace).reverse)

/-- `String.prototype.length`, in UTF-16 code units. -/
def utf16Length (s : String) : Nat :=
  (s.toList.map fun c ↦ if c.val < 0x10000 then 1 else 2).sum

/-- `s.slice(0, n)`, where half of a surrogate pair is no character. -/
def slice (n : Nat) : List Char → List Char
  | [] => []
  | c :: cs =>
    let units := if c.val < 0x10000 then 1 else 2
    if units ≤ n then c :: slice (n - units) cs else []

/-- What begins and ends in no blank is not changed by `trim`. -/
theorem trim_ofList {cs : List Char} (hhead : ∀ c ∈ cs.head?, isSpace c = false)
    (hlast : ∀ c ∈ cs.getLast?, isSpace c = false) : trim (.ofList cs) = .ofList cs := by
  have hdrop : ∀ ds : List Char, (∀ c ∈ ds.head?, isSpace c = false) →
      ds.dropWhile isSpace = ds := by
    intro ds hds
    cases ds with
    | nil => rfl
    | cons d ds => exact List.dropWhile_cons_of_neg (by rw [hds d rfl]; decide)
  unfold trim
  rw [String.toList_ofList, hdrop cs hhead, hdrop cs.reverse, List.reverse_reverse]
  rw [List.head?_reverse]
  exact hlast

theorem head?_trim (s : String) : ∀ c ∈ (trim s).toList.head?, isSpace c = false := by
  intro c hc
  unfold trim at hc
  rw [String.toList_ofList, List.head?_reverse] at hc
  have hsuffix := List.dropWhile_suffix isSpace (l := (s.toList.dropWhile isSpace).reverse)
  obtain ⟨pre, hpre⟩ := hsuffix
  have hlast : (s.toList.dropWhile isSpace).head? = some c := by
    rw [← List.getLast?_reverse, ← hpre, List.getLast?_append, Option.mem_def.mp hc]
    rfl
  cases hd : s.toList.dropWhile isSpace with
  | nil =>
    rw [hd] at hlast
    cases hlast
  | cons d ds =>
    rw [hd] at hlast
    obtain rfl := Option.some.inj hlast
    have hnot := List.head_dropWhile_not isSpace
      (show s.toList.dropWhile isSpace ≠ [] by rw [hd]; exact List.cons_ne_nil _ _)
    simp only [hd, List.head_cons] at hnot
    exact hnot

theorem slice_slice (n : Nat) (cs : List Char) : slice n (slice n cs) = slice n cs := by
  induction cs generalizing n with
  | nil => rfl
  | cons c cs ih =>
    by_cases hle : (if c.val < 0x10000 then 1 else 2) ≤ n
    · have hcons : ∀ ds, slice n (c :: ds) =
          c :: slice (n - if c.val < 0x10000 then 1 else 2) ds := fun ds ↦ if_pos hle
      rw [hcons, hcons, ih]
    · have hnil : slice n (c :: cs) = [] := if_neg hle
      rw [hnil]
      rfl

theorem head?_slice {n : Nat} (hn : 2 ≤ n) (cs : List Char) : (slice n cs).head? = cs.head? := by
  cases cs with
  | nil => rfl
  | cons c cs =>
    rw [slice]
    rw [if_pos (by split <;> omega)]
    rfl

theorem slice_eq_self {n : Nat} {cs : List Char} (hsmall : ∀ c ∈ cs, c.val < 0x10000)
    (hlen : cs.length ≤ n) : slice n cs = cs := by
  induction cs generalizing n with
  | nil => rfl
  | cons c cs ih =>
    rw [List.length_cons] at hlen
    have hc := hsmall c List.mem_cons_self
    have hrest := ih (n := n - 1) (fun d hd ↦ hsmall d (List.mem_cons_of_mem _ hd)) (by omega)
    rw [slice]
    rw [if_pos hc, if_pos (by omega), hrest]

theorem isSpace_of_isDigit {c : Char} (h : c.isDigit = true) : isSpace c = false := by
  simp only [Char.isDigit, Bool.and_eq_true, decide_eq_true_eq, ge_iff_le, UInt32.le_iff_toNat_le] at h
  simp only [isSpace, decide_eq_false_iff_not, ← UInt32.toNat_inj, UInt32.le_iff_toNat_le]
  simp at h ⊢
  omega

theorem repr_injective : Function.Injective Nat.repr := by
  intro m n h
  have hdigits : Nat.toDigits 10 m = Nat.toDigits 10 n := by
    rw [← Nat.toList_repr, ← Nat.toList_repr, h]
  calc
    m = Nat.ofDigitChars 10 (Nat.toDigits 10 m) 0 := Nat.ofDigitChars_ten_toDigits.symm
    _ = Nat.ofDigitChars 10 (Nat.toDigits 10 n) 0 := by rw [hdigits]
    _ = n := Nat.ofDigitChars_ten_toDigits

end Shellius
