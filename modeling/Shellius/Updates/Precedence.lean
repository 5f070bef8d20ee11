import Mathlib.Data.List.TakeWhile
import Mathlib.Order.WithBot
import Shellius.Updates.Instance

/-!
# The order of versions

`compareVersions` orders two suffixes as texts, where the semantic versioning that it is after
orders them identifier by identifier, numbers by their values; `Rightly` is the condition that the
two orders agree.  The identifiers of a suffix are what stands between its dots.
-/

namespace Shellius.Updates

open Lib

/-! ## Precedence -/

/-- What a text of digits stands for. -/
def value (ds : List Char) : Nat := Nat.ofDigitChars 10 ds 0

def isNumeric (x : List Char) : Bool := x ≠ [] && x.all Char.isDigit

def textOrder (x y : List Char) : Ordering := if x < y then .lt else if y < x then .gt else .eq

def identifierOrder (x y : List Char) : Ordering :=
  match isNumeric x, isNumeric y with
  | true, true => compare (value x) (value y)
  | true, false => .lt
  | false, true => .gt
  | false, false => textOrder x y

def identifiersOrder : List (List Char) → List (List Char) → Ordering
  | [], [] => .eq
  | [], _ :: _ => .lt
  | _ :: _, [] => .gt
  | x :: xs, y :: ys => (identifierOrder x y).then (identifiersOrder xs ys)

def suffixOrder : Option (List Char) → Option (List Char) → Ordering
  | some p, some q => identifiersOrder (p.splitOn '.') (q.splitOn '.')
  | some _, none => .lt
  | none, some _ => .gt
  | none, none => .eq

/-- The order of the numbers of two versions, each read by `f`. -/
def numbersOrder (f : List Char → Nat) (m n : Match) : Ordering :=
  (compare (f m.major) (f n.major)).then
    ((compare (f m.minor) (f n.minor)).then (compare (f m.patch) (f n.patch)))

def precedence (m n : Match) : Ordering := (numbersOrder value m n).then (suffixOrder m.pre n.pre)

/-! ## When the texts agree -/

/-- The first identifier is continued by a dash in the second, where a dot follows it. -/
def Dashed (x : List Char) (xs : List (List Char)) (y : List Char) : Prop :=
  xs ≠ [] ∧ x ++ ['-'] <+: y

/-- The first identifiers that differ come in the order of their texts. -/
def IdentifiersRightly : List (List Char) → List (List Char) → Prop
  | x :: xs, y :: ys =>
    if x = y then IdentifiersRightly xs ys
    else ¬ Dashed x xs y ∧ ¬ Dashed y ys x ∧
      textOrder x y = (identifierOrder x y).then (identifiersOrder xs ys)
  | _, _ => True

section

variable (number : List Char → Nat)

/-- Which versions are compared rightly: those of the same numbers of which the first identifiers
that differ come in the order of their texts, and those of different numbers of which the first
that `Number` tells apart are in the order of the versions, or, where it tells none apart, the
texts of the suffixes. -/
def Rightly (m n : Match) : Prop :=
  if numbersOrder number m n ≠ .eq then numbersOrder number m n = numbersOrder value m n
  else if numbersOrder value m n ≠ .eq then
    comparePre (m.pre.map .ofList) (n.pre.map .ofList) = numbersOrder value m n
  else
    match m.pre, n.pre with
    | some p, some q => IdentifiersRightly (p.splitOn '.') (q.splitOn '.')
    | _, _ => True

end

/-! ## Texts cut at their dots -/

/-- What follows an identifier: nothing, or a dot and the others. -/
def after (xs : List (List Char)) : List Char := xs.flatMap ('.' :: ·)

/-- A piece of a suffix between two dots. -/
def IsPiece (x : List Char) : Prop := ∀ c ∈ x, isPre c = true ∧ c ≠ '.'

theorem dot_lt {c : Char} (hpre : isPre c = true) (hdot : c ≠ '.') (hdash : c ≠ '-') : '.' < c := by
  have halnum : c.isAlphanum = ((decide (c.val ≥ 65 ∧ c.val ≤ 90) || c.val ≥ 97 && c.val ≤ 122) ||
      c.val ≥ 48 && c.val ≤ 57) := rfl
  simp only [isPre, halnum, Bool.or_eq_true, Bool.and_eq_true, decide_eq_true_eq, hdot, hdash,
    or_false] at hpre
  rw [Char.lt_def]
  simp only [ge_iff_le, UInt32.le_iff_toNat_le, UInt32.lt_iff_toNat_lt] at hpre ⊢
  simp at hpre ⊢
  omega

theorem append_lt_append {x y t : List Char} (xs : List (List Char)) (hy : IsPiece y) (h : x < y) :
    (Dashed x xs y → y ++ t < x ++ after xs) ∧ (¬ Dashed x xs y → x ++ after xs < y ++ t) := by
  induction x generalizing y with
  | nil =>
    cases y with
    | nil => exact absurd h (lt_irrefl _)
    | cons c cs =>
      cases xs with
      | nil => exact ⟨fun hd ↦ absurd rfl hd.1, fun _ ↦ List.nil_lt_cons _ _⟩
      | cons z zs =>
        have hafter : after (z :: zs) = '.' :: (z ++ after zs) := rfl
        rw [hafter]
        by_cases hc : c = '-'
        · subst hc
          exact ⟨fun _ ↦ List.cons_lt_cons_iff.mpr (.inl (by decide)),
            fun hd ↦ absurd ⟨List.cons_ne_nil _ _, ⟨cs, rfl⟩⟩ hd⟩
        · refine ⟨fun hd ↦ ?_, fun _ ↦ List.cons_lt_cons_iff.mpr (.inl ?_)⟩
          · obtain ⟨rest, hrest⟩ := hd.2
            exact absurd (List.cons.inj hrest).1.symm hc
          · exact dot_lt (hy c List.mem_cons_self).1 (hy c List.mem_cons_self).2 hc
  | cons a as ih =>
    cases y with
    | nil => exact absurd h (List.not_lt_nil _)
    | cons b bs =>
      rcases List.cons_lt_cons_iff.mp h with hab | ⟨rfl, htail⟩
      · refine ⟨fun hd ↦ ?_, fun _ ↦ List.cons_lt_cons_iff.mpr (.inl hab)⟩
        obtain ⟨rest, hrest⟩ := hd.2
        exact absurd (List.cons.inj hrest).1 hab.ne
      · have hdashed : Dashed (a :: as) xs (a :: bs) ↔ Dashed as xs bs := by
          simp only [Dashed, List.cons_append, List.prefix_cons_inj]
        obtain ⟨hlt, hgt⟩ := ih (fun c hc ↦ hy c (List.mem_cons_of_mem _ hc)) htail
        rw [hdashed]
        exact ⟨fun hd ↦ List.cons_lt_cons_iff.mpr (.inr ⟨rfl, hlt hd⟩),
          fun hd ↦ List.cons_lt_cons_iff.mpr (.inr ⟨rfl, hgt hd⟩)⟩

theorem textOrder_eq_lt {x y : List Char} : textOrder x y = .lt ↔ x < y := by
  unfold textOrder
  split
  · simpa
  · rename_i h
    simp only [h, iff_false]
    split <;> simp

theorem textOrder_swap (x y : List Char) : (textOrder x y).swap = textOrder y x := by
  rcases lt_trichotomy x y with h | rfl | h
  · simp [textOrder, h, h.not_gt]
  · simp [textOrder]
  · simp [textOrder, h, h.not_gt]

theorem textOrder_append_left (x s t : List Char) : textOrder (x ++ s) (x ++ t) = textOrder s t := by
  induction x with
  | nil => rfl
  | cons c x ih =>
    rw [← ih]
    simp [textOrder]

theorem not_numeric_of_dash {x y : List Char} (h : x ++ ['-'] <+: y) : isNumeric y = false := by
  obtain ⟨rest, rfl⟩ := h
  simp [isNumeric]

theorem identifierOrder_of_dash {x y : List Char} (h : x ++ ['-'] <+: y) (hlt : x < y) :
    identifierOrder x y = .lt := by
  unfold identifierOrder
  rw [not_numeric_of_dash h]
  cases isNumeric x with
  | true => rfl
  | false => exact textOrder_eq_lt.mpr hlt

theorem lt_of_dash {x y : List Char} (h : x ++ ['-'] <+: y) : x < y := by
  obtain ⟨rest, rfl⟩ := h
  induction x with
  | nil => exact List.nil_lt_cons _ _
  | cons c x ih => exact List.cons_lt_cons_iff.mpr (.inr ⟨rfl, ih⟩)

theorem identifierOrder_swap (x y : List Char) :
    (identifierOrder x y).swap = identifierOrder y x := by
  unfold identifierOrder
  cases isNumeric x <;> cases isNumeric y <;> simp [textOrder_swap, Nat.compare_swap]

theorem textOrder_append {x y : List Char} {xs ys : List (List Char)} (hx : IsPiece x)
    (hy : IsPiece y) (hne : x ≠ y) (hxs : ¬ Dashed x xs y) (hys : ¬ Dashed y ys x) :
    textOrder (x ++ after xs) (y ++ after ys) = textOrder x y := by
  rcases lt_or_gt_of_ne hne with h | h
  · rw [textOrder_eq_lt.mpr h, textOrder_eq_lt.mpr ((append_lt_append xs hy h).2 hxs)]
  · rw [← textOrder_swap, ← textOrder_swap y, textOrder_eq_lt.mpr h,
      textOrder_eq_lt.mpr ((append_lt_append ys hx h).2 hys)]

theorem textOrder_dashed {x y : List Char} {xs : List (List Char)} (ys : List (List Char))
    (hy : IsPiece y) (hd : Dashed x xs y) :
    textOrder (x ++ after xs) (y ++ after ys) = .gt ∧ identifierOrder x y = .lt := by
  have hlt := lt_of_dash hd.2
  refine ⟨?_, identifierOrder_of_dash hd.2 hlt⟩
  rw [← textOrder_swap, textOrder_eq_lt.mpr ((append_lt_append xs hy hlt).1 hd)]
  rfl

theorem identifierOrder_self (x : List Char) : identifierOrder x x = .eq := by
  unfold identifierOrder
  cases isNumeric x <;> simp [textOrder]

theorem identifiersRightly_iff {xs ys : List (List Char)} (hx : ∀ x ∈ xs, IsPiece x)
    (hy : ∀ y ∈ ys, IsPiece y) :
    IdentifiersRightly xs ys ↔ textOrder (after xs) (after ys) = identifiersOrder xs ys := by
  induction xs generalizing ys with
  | nil =>
    cases ys with
    | nil => exact iff_of_true trivial rfl
    | cons y ys => exact iff_of_true trivial (textOrder_eq_lt.mpr (List.nil_lt_cons _ _))
  | cons x xs ih =>
    cases ys with
    | nil =>
      refine iff_of_true trivial ?_
      have hlt : textOrder (after []) (after (x :: xs)) = .lt :=
        textOrder_eq_lt.mpr (List.nil_lt_cons _ _)
      rw [← textOrder_swap, hlt]
      rfl
    | cons y ys =>
      have hcons : textOrder (after (x :: xs)) (after (y :: ys)) =
          textOrder (x ++ after xs) (y ++ after ys) := textOrder_append_left ['.'] _ _
      rw [hcons, IdentifiersRightly, identifiersOrder]
      split
      · rename_i he
        subst he
        rw [textOrder_append_left, identifierOrder_self,
          ih (fun z hz ↦ hx z (List.mem_cons_of_mem _ hz))
            fun z hz ↦ hy z (List.mem_cons_of_mem _ hz)]
        rfl
      · rename_i hne
        have hpx := hx x List.mem_cons_self
        have hpy := hy y List.mem_cons_self
        by_cases hxs : Dashed x xs y
        · obtain ⟨htext, horder⟩ := textOrder_dashed ys hpy hxs
          rw [htext, horder]
          exact iff_of_false (fun h ↦ h.1 hxs) (by simp)
        · by_cases hys : Dashed y ys x
          · obtain ⟨htext, horder⟩ := textOrder_dashed xs hpx hys
            rw [← textOrder_swap (y ++ after ys), ← identifierOrder_swap y x, htext, horder]
            exact iff_of_false (fun h ↦ h.2.1 hys) (by simp)
          · rw [textOrder_append hpx hpy hne hxs hys]
            exact ⟨fun h ↦ h.2.2, fun h ↦ ⟨hxs, hys, h⟩⟩

theorem after_splitOn (p : List Char) : after (p.splitOn '.') = '.' :: p := by
  induction p with
  | nil => rfl
  | cons c p ih =>
    rw [List.splitOn_cons_eq_if_modifyHead]
    split
    · rename_i hc
      rw [eq_of_beq hc, ← ih]
      rfl
    · obtain ⟨x, xs, hxs⟩ := List.exists_cons_of_ne_nil (List.splitOn_ne_nil '.' p)
      rw [hxs] at ih ⊢
      have hp : x ++ after xs = p := (List.cons.inj ih).2
      rw [← hp]
      rfl

theorem isPiece_of_mem {p x : List Char} (hp : ∀ c ∈ p, isPre c = true)
    (hx : x ∈ p.splitOn '.') : IsPiece x := by
  induction p generalizing x with
  | nil =>
    rw [List.mem_singleton.mp hx]
    exact fun c hc ↦ absurd hc List.not_mem_nil
  | cons c p ih =>
    have htail : ∀ d ∈ p, isPre d = true := fun d hd ↦ hp d (List.mem_cons_of_mem _ hd)
    rw [List.splitOn_cons_eq_if_modifyHead] at hx
    split at hx
    · rcases List.mem_cons.mp hx with rfl | hx
      · exact fun c hc ↦ absurd hc List.not_mem_nil
      · exact ih htail hx
    · rename_i hc
      obtain ⟨y, ys, hys⟩ := List.exists_cons_of_ne_nil (List.splitOn_ne_nil '.' p)
      rw [hys] at hx ih
      rcases List.mem_cons.mp hx with rfl | hx
      · intro d hd
        rcases List.mem_cons.mp hd with rfl | hd
        · exact ⟨hp d List.mem_cons_self, by simpa using hc⟩
        · exact ih htail List.mem_cons_self d hd
      · exact ih htail (List.mem_cons_of_mem _ hx)

/-! ## Versions that are accepted -/

/-- What the pattern finds in a text. -/
def reading (v : String) : Option Match := scan (dropV (trim v).toList)

section

variable {number : List Char → Nat} {a b va : String} {m n : Match}

theorem normalizeVersion_eq_ok {v : String} :
    normalizeVersion a = .ok v ↔
      (∃ m, reading a = some m ∧ m.rest = []) ∧ v = .ofList (dropV (trim a).toList) := by
  simp only [normalizeVersion, reading]
  split
  · rename_i h
    simp [h, eq_comm]
  · rename_i h
    refine iff_of_false nofun fun hv ↦ ?_
    obtain ⟨⟨⟨major, minor, patch, pre, rest⟩, hm, rfl⟩, -⟩ := hv
    exact h _ _ _ _ hm

theorem isPre_of_suffix {cs p rest : List Char} (h : suffix cs = (some p, rest)) :
    ∀ c ∈ p, isPre c = true := by
  unfold suffix at h
  split at h
  · split at h
    · cases h
    · rename_i hspan
      rw [List.span_eq_takeWhile_dropWhile] at hspan
      rw [← Option.some.inj (Prod.mk.inj h).1, ← (Prod.mk.inj hspan).1]
      exact fun c hc ↦ List.mem_takeWhile_imp hc
  · cases h

theorem scan_spec {cs : List Char} (h : scan cs = some m) :
    (∃ c ds, cs = c :: ds ∧ c.isDigit = true) ∧ ∀ p ∈ m.pre, ∀ c ∈ p, isPre c = true := by
  unfold scan at h
  simp only [Option.bind_eq_bind, Option.bind_eq_some_iff, Prod.exists, Option.pure_def,
    Option.some.injEq] at h
  obtain ⟨major, cs₁, hmajor, cs₂, -, minor, cs₃, -, cs₄, -, patch, cs₅, -, rfl⟩ := h
  refine ⟨?_, fun p hp ↦ isPre_of_suffix (Prod.ext hp rfl)⟩
  cases cs with
  | nil => cases hmajor
  | cons c ds =>
    refine ⟨c, ds, rfl, ?_⟩
    by_contra hc
    simp [digits, List.span_eq_takeWhile_dropWhile, hc] at hmajor

theorem getLast?_trim (s : String) : ∀ c ∈ (trim s).toList.getLast?, isSpace c = false := by
  intro c hc
  unfold trim at hc
  rw [String.toList_ofList, List.getLast?_reverse] at hc
  have hnot := List.head?_dropWhile_not isSpace (s.toList.dropWhile isSpace).reverse
  rw [Option.mem_def.mp hc] at hnot
  simpa using hnot

theorem parse_normalized (ha : normalizeVersion a = .ok va) : parse number va = parse number a := by
  obtain ⟨⟨m, hm, -⟩, rfl⟩ := normalizeVersion_eq_ok.mp ha
  obtain ⟨⟨c, ds, hcs, hdigit⟩, -⟩ := scan_spec hm
  have hlast : ∀ d ∈ (c :: ds).getLast?, isSpace d = false := by
    intro d hd
    refine getLast?_trim a d ?_
    rw [← hcs] at hd
    revert hd
    unfold dropV
    split
    · rename_i cs htrim
      rw [htrim]
      intro hd
      rw [List.getLast?_cons, Option.mem_def.mp hd]
      rfl
    · exact id
  have htrim : trim (.ofList (c :: ds)) = .ofList (c :: ds) := by
    refine trim_ofList (fun d hd ↦ ?_) hlast
    rw [← Option.some.inj hd]
    exact isSpace_of_isDigit hdigit
  have hdrop : dropV (c :: ds) = c :: ds := by
    unfold dropV
    split
    · rename_i h
      rw [(List.cons.inj h).1] at hdigit
      exact absurd hdigit (by decide)
    · rfl
  unfold parse
  rw [hcs, htrim, String.toList_ofList, hdrop, ← hcs]

theorem compareVersions_eq (hm : reading a = some m) (hn : reading b = some n) :
    compareVersions number a b = some ((numbersOrder number m n).then
      (comparePre (m.pre.map .ofList) (n.pre.map .ofList))) := by
  have hpa : parse number a = some ⟨_, _⟩ := congrArg (Option.map _) hm
  have hpb : parse number b = some ⟨_, _⟩ := congrArg (Option.map _) hn
  simp only [compareVersions, hpa, hpb]
  rfl

/-! ## Newer than is a strict order -/

/-- A release comes after all that precede it. -/
def rank : Option String → WithTop String
  | some p => p
  | none => ⊤

def Version.key (v : Version) : Nat ×ₗ Nat ×ₗ Nat ×ₗ WithTop String :=
  toLex (v.nums.1, toLex (v.nums.2.1, toLex (v.nums.2.2, rank v.pre)))

theorem comparePre_eq_gt {p q : Option String} : comparePre p q = .gt ↔ rank q < rank p := by
  cases p with
  | none =>
    cases q with
    | none => exact iff_of_false (by decide) (lt_irrefl _)
    | some q => exact iff_of_true rfl (WithTop.coe_lt_top q)
  | some p =>
    cases q with
    | none => exact iff_of_false Ordering.noConfusion not_top_lt
    | some q =>
      refine Iff.trans ?_ WithTop.coe_lt_coe.symm
      simp only [comparePre]
      split_ifs with hpq hqp
      · exact iff_of_false (by decide) hpq.not_gt
      · exact iff_of_true rfl hqp
      · exact iff_of_false (by decide) hqp

theorem isNewer_iff : isNewer number a b = true ↔
    ∃ v ∈ parse number a, ∃ w ∈ parse number b, w.key < v.key := by
  unfold isNewer compareVersions
  cases parse number a with
  | none => simp
  | some v =>
    cases parse number b with
    | none => simp
    | some w =>
      simp only [Option.bind_eq_bind, Option.bind_some, Option.pure_def, decide_eq_true_eq,
        Option.some.injEq, Ordering.then_eq_gt, Ordering.then_eq_eq, compare_gt_iff_gt,
        compare_eq_iff_eq, comparePre_eq_gt, Option.mem_def, exists_eq_left', Version.key,
        Prod.Lex.toLex_lt_toLex]
      grind

theorem isNewer_strict (number : List Char → Nat) :
    IsStrictOrder String fun a b ↦ isNewer number a b = true where
  irrefl a h := by
    obtain ⟨v, hv, w, hw, hlt⟩ := isNewer_iff.mp h
    rw [Option.mem_unique hv hw] at hlt
    exact lt_irrefl _ hlt
  trans a b c hab hbc := by
    obtain ⟨u, hu, v, hv, huv⟩ := isNewer_iff.mp hab
    obtain ⟨v', hv', w, hw, hvw⟩ := isNewer_iff.mp hbc
    rw [Option.mem_unique hv' hv] at hvw
    exact isNewer_iff.mpr ⟨u, hu, w, hw, hvw.trans huv⟩

/-! ## Compared as the versions are -/

theorem comparePre_eq (p q : List Char) :
    comparePre (some (.ofList p)) (some (.ofList q)) = textOrder p q := by
  simp only [comparePre, textOrder, String.lt_iff_toList_lt, String.toList_ofList]

def Reads (number : List Char → Nat) : Prop :=
  ∀ ds es, value ds = value es → number ds = number es

theorem numbersOrder_eq_eq {f : List Char → Nat} : numbersOrder f m n = .eq ↔
    f m.major = f n.major ∧ f m.minor = f n.minor ∧ f m.patch = f n.patch := by
  simp [numbersOrder, Ordering.then_eq_eq]

theorem rightly_iff (hnumber : Reads number) (hm : reading a = some m) (hn : reading b = some n) :
    Rightly number m n ↔ (numbersOrder number m n).then
      (comparePre (m.pre.map .ofList) (n.pre.map .ofList)) = precedence m n := by
  have hread : numbersOrder value m n = .eq → numbersOrder number m n = .eq := by
    simp only [numbersOrder_eq_eq]
    exact fun h ↦ ⟨hnumber _ _ h.1, hnumber _ _ h.2.1, hnumber _ _ h.2.2⟩
  have hthen : ∀ o p : Ordering, o ≠ .eq → o.then p = o := by
    intro o p ho
    cases o with
    | eq => exact absurd rfl ho
    | lt | gt => rfl
  unfold Rightly precedence
  split_ifs with hnumbers hvalues
  · have hvalues : numbersOrder value m n ≠ .eq := fun h ↦ hnumbers (hread h)
    rw [hthen _ _ hnumbers, hthen _ _ hvalues]
  · rw [not_not.mp hnumbers, hthen _ _ hvalues]
    rfl
  · rw [not_not.mp hnumbers, not_not.mp hvalues]
    cases hp : m.pre with
    | none => cases n.pre <;> exact iff_of_true trivial rfl
    | some p =>
      cases hq : n.pre with
      | none => exact iff_of_true trivial rfl
      | some q =>
        have hsuffix : textOrder ('.' :: p) ('.' :: q) = textOrder p q :=
          textOrder_append_left ['.'] p q
        refine (identifiersRightly_iff
          (fun x ↦ isPiece_of_mem ((scan_spec hm).2 p hp))
          fun x ↦ isPiece_of_mem ((scan_spec hn).2 q hq)).trans ?_
        rw [after_splitOn, after_splitOn, hsuffix, ← comparePre_eq]
        rfl

/-- Two versions are compared as they are ordered, and the second is asked to become the first
just if that is the newer one. -/
structure Judged (number : List Char → Nat) (a b : String) (m n : Match) : Prop where
  compared : compareVersions number a b = some (precedence m n)
  newer : isNewer number a b = true ↔ precedence m n = .gt
  requested : ∀ s : Store, s.pending = none →
    ((∃ v, request number b s a = .ok v) ↔ precedence m n = .gt)

theorem request_eq_ok {s : Store} (hs : s.pending = none) (ha : normalizeVersion a = .ok va) :
    (∃ v, request number b s a = .ok v) ↔ isNewer number a b = true := by
  have hnewer : isNewer number va b = isNewer number a b := by
    unfold isNewer compareVersions
    rw [parse_normalized ha]
  rw [← hnewer]
  simp only [request, checkVersion, ha, hs, bind_eq_ok, require_eq_ok, pure_eq_ok]
  refine ⟨?_, fun h ↦ ⟨va, va, ?_⟩⟩
  · rintro ⟨_, _, h⟩
    grind
  · have hne : va ≠ b := by
      rintro rfl
      exact (isNewer_strict number).irrefl va h
    grind

/-- The service compares two versions rightly just if `Rightly` holds of them. -/
theorem judged_iff_rightly (hnumber : Reads number) (ha : normalizeVersion a = .ok va)
    (hm : reading a = some m) (hn : reading b = some n) :
    IsStrictOrder String (fun a b ↦ isNewer number a b = true) ∧
      (Judged number a b m n ↔ Rightly number m n) := by
  refine ⟨isNewer_strict number, ?_⟩
  have hcompare : compareVersions number a b = _ := compareVersions_eq hm hn
  rw [rightly_iff hnumber hm hn]
  refine ⟨fun h ↦ Option.some.inj (hcompare.symm.trans h.compared), fun h ↦ ?_⟩
  have hnewer : isNewer number a b = true ↔ precedence m n = .gt := by
    simp only [isNewer, hcompare, h, decide_eq_true_eq, Option.some.injEq]
  exact ⟨hcompare.trans (congrArg some h), hnewer, fun s hs ↦ (request_eq_ok hs ha).trans hnewer⟩

end

theorem reads_value : Reads value := fun _ _ h ↦ h

/-- A beta and a release candidate, which their texts order as well. -/
theorem candidateAfterBeta_judged : Judged value "2.1.0-rc.1" "2.1.0-beta.2"
    ⟨['2'], ['1'], ['0'], some "rc.1".toList, []⟩
    ⟨['2'], ['1'], ['0'], some "beta.2".toList, []⟩ := by
  refine (judged_iff_rightly reads_value
    (show normalizeVersion _ = .ok "2.1.0-rc.1" by decide +kernel) (by decide +kernel)
    (by decide +kernel)).2.mpr ?_
  unfold Rightly
  rw [if_neg (by decide), if_neg (by decide)]
  show IdentifiersRightly ["rc".toList, ['1']] ["beta".toList, ['2']]
  rw [IdentifiersRightly, if_neg (by decide)]
  exact ⟨fun h ↦ absurd h.2 (by decide), fun h ↦ absurd h.2 (by decide), by decide⟩

/-- The tenth release candidate is taken to be older than the ninth, and cannot be asked for. -/
theorem tenthCandidate_misjudged :
    ¬ ∀ (number : List Char → Nat) (a b va vb : String) (m n : Match), Reads number →
      normalizeVersion a = .ok va → normalizeVersion b = .ok vb → reading a = some m →
      reading b = some n → Judged number a b m n := by
  intro h
  have hjudged := h value "2.1.0-rc.10" "2.1.0-rc.9" "2.1.0-rc.10" "2.1.0-rc.9"
    ⟨['2'], ['1'], ['0'], some "rc.10".toList, []⟩ ⟨['2'], ['1'], ['0'], some "rc.9".toList, []⟩
    reads_value (by decide +kernel) (by decide +kernel) (by decide +kernel) (by decide +kernel)
  exact absurd hjudged.compared (by decide +kernel)

end Shellius.Updates
