import Mathlib.Data.List.Induction
import Mathlib.Tactic.Common
import Shellius.Lib.Words
import Shellius.Net

/-!
# The groups of an address

An IPv6 address that `net.isIP` accepts is eight groups of sixteen bits, in whatever way it is
written: with `::` for some of them, or with the last two as an IPv4 address.  Its text begins with
`::`, or with the digits of its first group.
-/

namespace Shellius

/-! ## Digits -/

def hexadecimals : List Char := "0123456789abcdefABCDEF".toList

theorem mem_hexadecimals {c : Char} (h : isHexadecimal c = true) : c ∈ hexadecimals := by
  have hall : ∀ n : Fin 128, isHexadecimal (Char.ofNat n) = true →
      (Char.ofNat n) ∈ hexadecimals := by decide +kernel
  have hascii : c.toNat < 128 := by
    simp only [isHexadecimal, isDecimal, decide_eq_true_eq, Char.le_def, UInt32.le_iff_toNat_le] at h
    change c.val.toNat < 128
    have h9 : '9'.val.toNat = 57 := rfl
    have hf : 'f'.val.toNat = 102 := rfl
    have hF : 'F'.val.toNat = 70 := rfl
    omega
  have hc := hall ⟨c.toNat, hascii⟩
  rw [Char.ofNat_toNat] at hc
  exact hc h

theorem forall_hexadecimal {P : Char → Prop} [DecidablePred P]
    (h : (hexadecimals.all fun c ↦ decide (P c)) = true) {c : Char} (hc : isHexadecimal c = true) :
    P c :=
  of_decide_eq_true (List.all_eq_true.mp h c (mem_hexadecimals hc))

theorem hexadecimalDigit_lt {c : Char} (h : isHexadecimal c = true) : hexadecimalDigit c < 16 :=
  forall_hexadecimal (P := fun c ↦ hexadecimalDigit c < 16) (by decide) h

theorem ne_colon_of_isHexadecimal {c : Char} (h : isHexadecimal c = true) : c ≠ ':' :=
  forall_hexadecimal (P := fun c ↦ c ≠ ':') (by decide) h

theorem ne_dot_of_isHexadecimal {c : Char} (h : isHexadecimal c = true) : c ≠ '.' :=
  forall_hexadecimal (P := fun c ↦ c ≠ '.') (by decide) h

theorem isHexadecimal_of_isDecimal {c : Char} (h : isDecimal c = true) : isHexadecimal c = true :=
  decide_eq_true (.inl h)

theorem hexadecimalValue_append (ds es : List Char) : hexadecimalValue (ds ++ es) =
    es.foldl (fun n c ↦ 16 * n + hexadecimalDigit c) (hexadecimalValue ds) := List.foldl_append

theorem hexadecimalValue_lt {ds : List Char} (h : ds.all isHexadecimal = true) :
    hexadecimalValue ds < 16 ^ ds.length := by
  induction ds using List.reverseRecOn with
  | nil => exact Nat.one_pos
  | append_singleton ds d ih =>
    rw [List.all_append, Bool.and_eq_true, List.all_cons, List.all_nil, Bool.and_true] at h
    have hd := hexadecimalDigit_lt h.2
    have hds := ih h.1
    rw [hexadecimalValue_append, List.length_append, List.length_singleton, Nat.pow_succ]
    change 16 * hexadecimalValue ds + hexadecimalDigit d < _
    omega

/-! ## Parts of an address -/

section

variable {t cs side : List Char} {n : Nat} {atEnd : Bool}

theorem isGroup_spec (h : isGroup t = true) :
    t ≠ [] ∧ t.length ≤ 4 ∧ t.all isHexadecimal = true := of_decide_eq_true h

theorem hexadecimalValue_lt_of_isGroup (h : isGroup t = true) : hexadecimalValue t < 65536 := by
  obtain ⟨-, hlen, hall⟩ := isGroup_spec h
  exact Nat.lt_of_lt_of_le (hexadecimalValue_lt hall) (Nat.pow_le_pow_right (by decide) hlen)

theorem percent_notMem_of_isGroup (h : isGroup t = true) : '%' ∉ t := fun hmem ↦
  absurd (List.all_eq_true.mp (isGroup_spec h).2.2 _ hmem) (by decide)

theorem colon_notMem_of_isGroup (h : isGroup t = true) : ':' ∉ t := fun hmem ↦
  ne_colon_of_isHexadecimal (List.all_eq_true.mp (isGroup_spec h).2.2 _ hmem) rfl

theorem isIPv4Chars_spec (h : isIPv4Chars cs = true) : ∃ a b c d : List Char,
    cs.splitOn '.' = [a, b, c, d] ∧ ∀ o ∈ [a, b, c, d], isOctet o = true := by
  obtain ⟨hlen, hall⟩ := of_decide_eq_true h
  obtain ⟨a, b, c, d, hsplit⟩ := List.length_eq_four.mp hlen
  rw [hsplit] at hall ⊢
  exact ⟨a, b, c, d, rfl, List.all_eq_true.mp hall⟩

theorem isOctet_spec (h : isOctet t = true) : t ≠ [] ∧ t.length ≤ 3 ∧ t.all isDecimal = true ∧
    (t.head? = some '0' → t.length = 1) ∧ decimalValue t ≤ 255 := of_decide_eq_true h

theorem not_isIPv4Chars_of_isGroup (h : isGroup t = true) : isIPv4Chars t = false := by
  rw [Bool.eq_false_iff]
  intro hip
  obtain ⟨a, b, c, d, hsplit, -⟩ := isIPv4Chars_spec hip
  have hdot : '.' ∉ t := fun hmem ↦
    ne_dot_of_isHexadecimal (List.all_eq_true.mp (isGroup_spec h).2.2 _ hmem) rfl
  rw [List.splitOn_eq_singleton hdot] at hsplit
  cases hsplit

theorem mem_isIPv4Chars (h : isIPv4Chars cs = true) {ch : Char} (hmem : ch ∈ cs) :
    ch = '.' ∨ isDecimal ch = true := by
  obtain ⟨a, b, c, d, hsplit, hoctet⟩ := isIPv4Chars_spec h
  rw [← @List.intercalate_splitOn _ cs _ _ '.', hsplit] at hmem
  refine (Lib.mem_intercalate hmem).imp_right fun ⟨o, ho, hin⟩ ↦ ?_
  exact List.all_eq_true.mp (isOctet_spec (hoctet o ho)).2.2.1 _ hin

theorem colon_notMem_of_isIPv4Chars (h : isIPv4Chars cs = true) : ':' ∉ cs := fun hmem ↦
  absurd (mem_isIPv4Chars h hmem) (by decide)

theorem percent_notMem_of_isIPv4Chars (h : isIPv4Chars cs = true) : '%' ∉ cs := fun hmem ↦
  absurd (mem_isIPv4Chars h hmem) (by decide)

theorem ipv4Value_eq {a b c d : List Char} (h : cs.splitOn '.' = [a, b, c, d]) : ipv4Value cs =
    ((decimalValue a * 256 + decimalValue b) * 256 + decimalValue c) * 256 + decimalValue d := by
  rw [ipv4Value, h]
  simp only [List.foldl_cons, List.foldl_nil]
  omega

theorem ipv4Value_lt (h : isIPv4Chars cs = true) : ipv4Value cs < 4294967296 := by
  obtain ⟨a, b, c, d, hsplit, hoctet⟩ := isIPv4Chars_spec h
  have hle : ∀ o ∈ [a, b, c, d], decimalValue o ≤ 255 := fun o ho ↦ (isOctet_spec (hoctet o ho)).2.2.2.2
  simp only [List.forall_mem_cons] at hle
  rw [ipv4Value_eq hsplit]
  omega

/-- A side of `::` that is well formed has as many groups as it says. -/
theorem sideGroups_spec (h : groupCount atEnd side = some n) :
    (sideGroups side).length = n ∧ ∀ g ∈ sideGroups side, g < 65536 := by
  unfold groupCount at h
  unfold sideGroups
  split at h
  · rename_i hnil
    obtain rfl := Option.some.inj h
    rw [if_pos hnil]
    exact ⟨rfl, fun g hg ↦ absurd hg List.not_mem_nil⟩
  · rename_i hne
    rw [if_neg hne]
    dsimp only at h ⊢
    have hparts : side.splitOn ':' ≠ [] := List.splitOn_ne_nil _ _
    have hlast : (side.splitOn ':').getLast?.getD [] = (side.splitOn ':').getLast hparts := by
      rw [List.getLast?_eq_some_getLast hparts, Option.getD_some]
    rw [hlast] at h ⊢
    split at h
    · rename_i hgroups
      obtain rfl := Option.some.inj h
      have hall := List.all_eq_true.mp hgroups
      rw [if_neg (Bool.eq_false_iff.mp (not_isIPv4Chars_of_isGroup
        (hall _ (List.getLast_mem hparts))))]
      refine ⟨List.length_map _, fun g hg ↦ ?_⟩
      obtain ⟨t, ht, rfl⟩ := List.mem_map.mp hg
      exact hexadecimalValue_lt_of_isGroup (hall t ht)
    · split at h
      · rename_i hmixed
        obtain rfl := Option.some.inj h
        obtain ⟨-, hgroups, hip⟩ := hmixed
        rw [if_pos hip]
        have hpos := List.length_pos_iff.mpr hparts
        refine ⟨by simp; omega, fun g hg ↦ ?_⟩
        have hlt := ipv4Value_lt hip
        rcases List.mem_append.mp hg with hg | hg
        · obtain ⟨t, ht, rfl⟩ := List.mem_map.mp hg
          exact hexadecimalValue_lt_of_isGroup (List.all_eq_true.mp hgroups t ht)
        · simp only [List.mem_cons, List.not_mem_nil, or_false] at hg
          omega
      · cases h

theorem ipv6Groups_spec (h : isIPv6Chars cs = true) :
    (ipv6Groups cs).length = 8 ∧ ∀ g ∈ ipv6Groups cs, g < 65536 := by
  unfold isIPv6Chars at h
  unfold ipv6Groups
  split at h
  · exact sideGroups_spec (of_decide_eq_true h)
  · rename_i left right hgap
    dsimp only
    split at h
    · rename_i m n hm hn
      obtain ⟨hlen, hlt⟩ := sideGroups_spec hm
      obtain ⟨hlen', hlt'⟩ := sideGroups_spec hn
      have hle := of_decide_eq_true h
      refine ⟨by simp; omega, fun g hg ↦ ?_⟩
      simp only [List.mem_append, List.mem_replicate] at hg
      rcases hg with (hg | ⟨-, rfl⟩) | hg
      · exact hlt g hg
      · decide
      · exact hlt' g hg
    · cases h

/-! ## The first group -/

theorem splitGap_spec {left right : List Char} (h : splitGap cs = some (left, right)) :
    cs = left ++ ':' :: ':' :: right := by
  induction cs using splitGap.induct generalizing left right with
  | case1 rest =>
    obtain ⟨rfl, rfl⟩ := Prod.mk.inj (Option.some.inj h)
    rfl
  | case2 c rest hc ih =>
    rw [splitGap.eq_2 _ _ hc] at h
    obtain ⟨⟨l, r⟩, hlr, heq⟩ := Option.map_eq_some_iff.mp h
    obtain ⟨rfl, rfl⟩ := Prod.mk.inj heq
    rw [ih hlr]
    rfl
  | case3 => cases h

/-- A text of groups begins with a group, where an IPv4 address is not all of it. -/
theorem exists_first_group (hside : side ≠ []) (h : groupCount atEnd side = some n)
    (hmany : atEnd = true → 2 < n) : ∃ t parts, isGroup t = true ∧ side.splitOn ':' = t :: parts ∧
      (sideGroups side).head? = some (hexadecimalValue t) ∧ (atEnd = true → parts ≠ []) := by
  obtain ⟨t, parts, hsplit⟩ := List.exists_cons_of_ne_nil (List.splitOn_ne_nil ':' side)
  unfold groupCount at h
  unfold sideGroups
  rw [if_neg hside] at h ⊢
  rw [hsplit] at h ⊢
  dsimp only at h ⊢
  refine ⟨t, parts, ?_, rfl, ?_⟩
  · split at h
    · rename_i hgroups
      exact List.all_eq_true.mp hgroups t List.mem_cons_self
    · split at h
      · rename_i hmixed
        obtain rfl := Option.some.inj h
        have hlen := hmany hmixed.1
        cases parts with
        | nil => simp at hlen
        | cons t' parts =>
          rw [List.dropLast_cons_cons] at hmixed
          exact List.all_eq_true.mp hmixed.2.1 t List.mem_cons_self
      · cases h
  · split at h
    · rename_i hgroups
      obtain rfl := Option.some.inj h
      have hlast : isIPv4Chars ((t :: parts).getLast?.getD []) = false := by
        rw [List.getLast?_eq_some_getLast (List.cons_ne_nil t parts), Option.getD_some]
        exact not_isIPv4Chars_of_isGroup
          (List.all_eq_true.mp hgroups _ (List.getLast_mem (List.cons_ne_nil t parts)))
      rw [if_neg (Bool.eq_false_iff.mp hlast)]
      refine ⟨rfl, ?_⟩
      rintro hend rfl
      exact absurd (hmany hend) (by simp)
    · split at h
      · rename_i hmixed
        obtain rfl := Option.some.inj h
        have hlen := hmany hmixed.1
        rw [if_pos hmixed.2.2]
        cases parts with
        | nil => simp at hlen
        | cons t' parts => exact ⟨by rw [List.dropLast_cons_cons]; rfl, fun _ ↦ List.cons_ne_nil _ _⟩
      · cases h

theorem eq_append_of_splitOn {parts : List (List Char)} (h : side.splitOn ':' = t :: parts) :
    side = if parts = [] then t else t ++ ':' :: [':'].intercalate parts := by
  rw [← @List.intercalate_splitOn _ side _ _ ':', h, Lib.intercalate_cons]
  rfl

/-- An address begins with `::`, and its first group is zero, or with its first group. -/
theorem first_group (h : isIPv6Chars cs = true) :
    (∃ rest, cs = ':' :: ':' :: rest ∧ (ipv6Groups cs).head? = some 0) ∨
    ∃ t rest, isGroup t = true ∧ cs = t ++ ':' :: rest ∧
      (ipv6Groups cs).head? = some (hexadecimalValue t) := by
  unfold isIPv6Chars at h
  unfold ipv6Groups
  split at h
  · have hcount := of_decide_eq_true h
    have hne : cs ≠ [] := by
      rintro rfl
      cases hcount
    obtain ⟨t, parts, ht, hsplit, hhead, hmore⟩ := exists_first_group hne hcount fun _ ↦ by decide
    have heq := eq_append_of_splitOn hsplit
    rw [if_neg (hmore rfl)] at heq
    exact .inr ⟨t, _, ht, heq, hhead⟩
  · rename_i left right hgap
    have hcs := splitGap_spec hgap
    dsimp only
    split at h
    · rename_i m n hm hn
      have hle := of_decide_eq_true h
      have hlen := (sideGroups_spec hn).1
      by_cases hleft : left = []
      · subst hleft
        refine .inl ⟨right, hcs, ?_⟩
        rw [show sideGroups [] = [] from rfl, List.length_nil, hlen, List.nil_append]
        obtain ⟨k, hk⟩ : ∃ k, 8 - 0 - n = k + 1 := ⟨7 - n, by omega⟩
        rw [hk, List.replicate_succ]
        rfl
      · obtain ⟨t, parts, ht, hsplit, hhead, -⟩ := exists_first_group hleft hm nofun
        have heq := eq_append_of_splitOn hsplit
        have hgroups : (sideGroups left ++ List.replicate (8 - (sideGroups left).length -
            (sideGroups right).length) 0 ++ sideGroups right).head? =
              some (hexadecimalValue t) := by
          rw [List.append_assoc, List.head?_append, hhead, Option.some_or]
        split at heq
        · exact .inr ⟨t, ':' :: right, ht, heq ▸ hcs, hgroups⟩
        · refine .inr ⟨t, [':'].intercalate parts ++ ':' :: ':' :: right, ht, ?_, hgroups⟩
          rw [hcs, heq, List.append_assoc, List.cons_append]
    · cases h

end

end Shellius
