import Mathlib.Tactic.FinCases
import Shellius.Net.Ranges
import Shellius.QuickConnect.Tickets

/-!
# One address, many spellings

`classifyIp` reads an address as a text.  It knows two spellings of the unspecified address, two
of the loopback address, and one of the addresses that are mapped from IPv4; of the others it
looks at the first characters.

An address is told by its number.  So another spelling of the loopback address is public, as is
the loopback address of IPv4 when the last groups are hexadecimal, or when a zone is named
(`classifyIp_eq`).
-/

namespace Shellius.QuickConnect

open Shellius

/-! ## Classes of texts -/

/-- The class that the first characters of an IPv6 address tell. -/
def prefixClass (lower : List Char) : IpClass :=
  if ["fe8", "fe9", "fea", "feb"].any fun s ↦ s.toList <+: lower then .linklocal
  else if "ff".toList <+: lower then .multicast
  else if "fc".toList <+: lower ∨ "fd".toList <+: lower then .privateRange
  else .publicRange

def ipv4Class (n : Nat) : IpClass :=
  if n / 16777216 = 127 then .loopback
  else if n / 16777216 = 0 then .unspecified
  else if n / 65536 = 0xa9fe then .linklocal
  else if n / 268435456 = 14 then .multicast
  else if n = 0xffffffff then .multicast
  else if n / 16777216 = 10 then .privateRange
  else if n / 1048576 = 0xac1 then .privateRange
  else if n / 65536 = 0xc0a8 then .privateRange
  else .publicRange

def unspecifiedSpellings : List (List Char) := ["::", "0:0:0:0:0:0:0:0"].map String.toList

def loopbackSpellings : List (List Char) := ["::1", "0:0:0:0:0:0:0:1"].map String.toList

/-- The spelling of a mapped address that is looked into: `::ffff:` and an IPv4 address. -/
def Dotted (text : List Char) : Prop :=
  "::ffff:".toList <+: text.map Char.toLower ∧ isIPv4Chars ((text.map Char.toLower).drop 7) = true

instance (text : List Char) : Decidable (Dotted text) := inferInstanceAs (Decidable (_ ∧ _))

/-- What an IPv6 address is taken for, that is spelled so and has this value. -/
def readAs (text : List Char) (v : Nat) : IpClass :=
  if text ∈ unspecifiedSpellings then .unspecified
  else if text ∈ loopbackSpellings then .loopback
  else if Dotted text then ipv4Class (v % 4294967296)
  else if text.head? = some '0' then .publicRange
  else prefixClass (hexText (v / 2 ^ 112))

/-! ## Characters -/

section

variable {c d : Char} {w rest p : List Char} {v n : Nat} {s : String}

theorem eq_of_toLower_eq (hd : ¬ ('a' ≤ d ∧ d ≤ 'z')) (h : c.toLower = d) : c = d := by
  unfold Char.toLower at h
  split at h
  · rename_i hupper
    refine absurd ?_ hd
    have hval : d.val = c.val + ('a'.val - 'A'.val) := h ▸ rfl
    have hA := UInt32.le_iff_toNat_le.mp hupper.1
    have hZ := UInt32.le_iff_toNat_le.mp hupper.2
    simp only [Char.le_def, UInt32.le_iff_toNat_le, hval, UInt32.toNat_add] at hA hZ ⊢
    have hAn : 'A'.val.toNat = 65 := rfl
    have hZn : 'Z'.val.toNat = 90 := rfl
    have han : 'a'.val.toNat = 97 := rfl
    have hzn : 'z'.val.toNat = 122 := rfl
    have hdn : ('a'.val - 'A'.val).toNat = 32 := rfl
    omega
  · exact h

theorem eq_of_map_toLower {ds : List Char}
    (hds : ds.all (fun d ↦ !decide ('a' ≤ d ∧ d ≤ 'z')) = true) (h : w.map Char.toLower = ds) :
    w = ds := by
  induction w generalizing ds with
  | nil => exact h
  | cons c w ih =>
    subst h
    rw [List.map_cons, List.all_cons, Bool.and_eq_true, Bool.not_eq_true',
      decide_eq_false_iff_not] at hds
    rw [List.map_cons, ← eq_of_toLower_eq hds.1 rfl, ← ih hds.2 rfl]

theorem map_toLower_eq_iff {ds : List Char}
    (hds : ds.all (fun d ↦ !decide ('a' ≤ d ∧ d ≤ 'z')) = true)
    (hself : ds.map Char.toLower = ds) : w.map Char.toLower = ds ↔ w = ds :=
  ⟨eq_of_map_toLower hds, fun h ↦ h ▸ hself⟩

theorem eq_of_isIPv4Chars_toLower (h : isIPv4Chars (w.map Char.toLower) = true) :
    w.map Char.toLower = w := by
  refine (eq_of_map_toLower (List.all_eq_true.mpr fun d hd ↦ ?_) rfl).symm
  rcases mem_isIPv4Chars h hd with rfl | hdec
  · decide
  · simp only [isDecimal, decide_eq_true_eq, Char.le_def, UInt32.le_iff_toNat_le] at hdec
    simp only [Bool.not_eq_true', decide_eq_false_iff_not, Char.le_def, UInt32.le_iff_toNat_le]
    have h9 : '9'.val.toNat = 57 := rfl
    have ha : 'a'.val.toNat = 97 := rfl
    omega

theorem isPrefix_append_cons {sep : Char} (hp : sep ∉ p) : p <+: w ++ sep :: rest ↔ p <+: w := by
  induction p generalizing w with
  | nil => simp
  | cons a p ih =>
    have ha : a ≠ sep := fun heq ↦ hp (heq ▸ List.mem_cons_self)
    have hp' : sep ∉ p := fun hmem ↦ hp (List.mem_cons_of_mem _ hmem)
    cases w with
    | nil => simp [List.cons_prefix_cons, ha]
    | cons b w => rw [List.cons_append, List.cons_prefix_cons, List.cons_prefix_cons, ih hp']

theorem prefixClass_append_colon : prefixClass (w ++ ':' :: rest) = prefixClass w := by
  have hp : ∀ p : List Char, ':' ∉ p → (p <+: w ++ ':' :: rest ↔ p <+: w) := fun _ ↦
    isPrefix_append_cons
  unfold prefixClass
  refine if_congr (by simp [hp]) rfl (if_congr (hp _ (by decide)) rfl (if_congr ?_ rfl rfl))
  rw [hp _ (by decide), hp _ (by decide)]

theorem prefixClass_of_head (hc : w.head? ≠ some 'f') : prefixClass w = .publicRange := by
  have hf : ∀ p : List Char, ¬ 'f' :: p <+: w := by
    rintro p ⟨t, rfl⟩
    exact hc rfl
  unfold prefixClass
  rw [if_neg, if_neg, if_neg]
  · exact fun h ↦ h.elim (hf _) (hf _)
  · exact hf _
  · simp only [List.any_cons, List.any_nil, Bool.or_false, Bool.or_eq_true, decide_eq_true_eq]
    rintro (h | h | h | h) <;> exact hf _ h

theorem prefixClass_linkLocal (h : n / 64 = 0x3fa) : prefixClass (hexText n) = .linklocal := by
  have hall : ∀ k : Fin 64, prefixClass (hexText (0xfe80 + k)) = .linklocal := by decide +kernel
  obtain ⟨k, hk, rfl⟩ : ∃ k < 64, n = 0xfe80 + k := ⟨n - 0xfe80, by omega, by omega⟩
  exact hall ⟨k, hk⟩

/-! ## IPv4 -/

theorem classifyIPv4_eq {cs : List Char} (h : isIPv4Chars cs = true) :
    classifyIPv4 cs = ipv4Class (ipv4Value cs) := by
  obtain ⟨a, b, c, d, hsplit, hoctet⟩ := isIPv4Chars_spec h
  have hle : ∀ o ∈ [a, b, c, d], decimalValue o ≤ 255 := fun o ho ↦
    (isOctet_spec (hoctet o ho)).2.2.2.2
  simp only [List.forall_mem_cons] at hle
  obtain ⟨ha, hb, hc, hd, -⟩ := hle
  rw [ipv4Value_eq hsplit, classifyIPv4, hsplit]
  simp only [List.map_cons, List.map_nil]
  generalize decimalValue a = a at ha ⊢
  generalize decimalValue b = b at hb ⊢
  generalize decimalValue c = c at hc ⊢
  generalize decimalValue d = d at hd ⊢
  unfold ipv4Class
  refine if_congr (by omega) rfl <| if_congr (by omega) rfl <| if_congr (by omega) rfl <|
    if_congr (by omega) rfl <| if_congr (by omega) rfl <| if_congr (by omega) rfl <|
    if_congr (by omega) rfl <| if_congr (by omega) rfl rfl

/-! ## IPv6 -/

theorem prefixClass_toLower (h : isIPv6 s = true) (hv : addressValue s = some v) :
    prefixClass (s.toList.map Char.toLower) = if s.toList.head? = some '0' then .publicRange
      else prefixClass (hexText (v / 2 ^ 112)) := by
  obtain ⟨hchars, htext⟩ := isIPv6_spec h
  obtain ⟨hlen, hlt⟩ := ipv6Groups_spec hchars
  have hhead := head_eq_div hlen hlt
  rw [addressValue_of_isIPv6 h, Option.some.injEq] at hv
  rw [hv] at hhead
  obtain ⟨tail, htail⟩ : ∃ tail, s.toList = addressChars s ++ tail := by
    rcases htext with heq | ⟨zone, heq⟩
    · exact ⟨[], by rw [List.append_nil, ← heq]⟩
    · exact ⟨_, heq⟩
  rw [htail]
  rcases first_group hchars with ⟨rest, heq, hzero⟩ | ⟨t, rest, ht, heq, hgroup⟩
  · have hv0 := Option.some.inj (hhead.symm.trans hzero)
    rw [heq, hv0, prefixClass_of_head (by simp), if_neg (by simp), prefixClass_of_head (by decide)]
  · have hvt := Option.some.inj (hhead.symm.trans hgroup)
    obtain ⟨c, t, rfl⟩ := List.exists_cons_of_ne_nil (isGroup_spec ht).1
    have hsplit : addressChars s ++ tail = (c :: t) ++ ':' :: (rest ++ tail) := by
      rw [heq, List.append_assoc]
      rfl
    rw [hsplit, List.map_append, List.map_cons (l := rest ++ tail),
      show Char.toLower ':' = ':' from rfl, prefixClass_append_colon, List.cons_append,
      List.head?_cons]
    split
    · rename_i hzero
      obtain rfl := Option.some.inj hzero
      exact prefixClass_of_head (by simp)
    · rename_i hzero
      rw [hvt, map_toLower_eq_hexText ht fun hpad ↦ absurd hpad hzero]

theorem first_lt_of_head (h : isIPv6 s = true) (hv : addressValue s = some v)
    (hhead : s.toList.head? = some '0') : v / 2 ^ 112 < 4096 := by
  obtain ⟨hchars, htext⟩ := isIPv6_spec h
  obtain ⟨hlen, hlt⟩ := ipv6Groups_spec hchars
  have hfirst := head_eq_div hlen hlt
  rw [addressValue_of_isIPv6 h, Option.some.injEq] at hv
  rw [hv] at hfirst
  rcases first_group hchars with ⟨rest, heq, hzero⟩ | ⟨t, rest, ht, heq, hgroup⟩
  · rw [Option.some.inj (hfirst.symm.trans hzero)]
    decide
  · rw [Option.some.inj (hfirst.symm.trans hgroup)]
    obtain ⟨c, t, rfl⟩ := List.exists_cons_of_ne_nil (isGroup_spec ht).1
    obtain rfl : c = '0' := by
      rcases htext with hs | ⟨zone, hs⟩ <;> rw [hs, heq] at hhead <;> exact Option.some.inj hhead
    obtain ⟨-, hle, hall⟩ := isGroup_spec ht
    rw [List.all_cons, Bool.and_eq_true] at hall
    change hexadecimalValue t < 16 ^ 3
    exact Nat.lt_of_lt_of_le (hexadecimalValue_lt hall.2)
      (Nat.pow_le_pow_right (by decide) (Nat.le_of_succ_le_succ hle))

theorem eq_f_of_toLower (h : c.toLower = 'f') : c = 'f' ∨ c = 'F' := by
  unfold Char.toLower at h
  split at h
  · refine .inr (Char.ext ?_)
    have hval : c.val + ('a'.val - 'A'.val) = 'f'.val := congrArg Char.val h
    rw [← UInt32.toNat_inj]
    have hnat := congrArg UInt32.toNat hval
    have hlt := UInt32.toNat_lt c.val
    rw [UInt32.toNat_add] at hnat
    have hf : 'f'.val.toNat = 102 := rfl
    have hF : 'F'.val.toNat = 70 := rfl
    have hdiff : ('a'.val - 'A'.val).toNat = 32 := rfl
    omega
  · exact .inl h

theorem mark_spec (h : w.map Char.toLower = "::ffff:".toList) :
    ∃ t, w = ':' :: ':' :: (t ++ [':']) ∧ isGroup t = true ∧ hexadecimalValue t = 65535 := by
  obtain ⟨a, w₁, rfl, ha, h₁⟩ := List.map_eq_cons_iff.mp h
  obtain ⟨b, w₂, rfl, hb, h₂⟩ := List.map_eq_cons_iff.mp h₁
  obtain ⟨c, w₃, rfl, hc, h₃⟩ := List.map_eq_cons_iff.mp h₂
  obtain ⟨d, w₄, rfl, hd, h₄⟩ := List.map_eq_cons_iff.mp h₃
  obtain ⟨e, w₅, rfl, he, h₅⟩ := List.map_eq_cons_iff.mp h₄
  obtain ⟨f, w₆, rfl, hf, h₆⟩ := List.map_eq_cons_iff.mp h₅
  obtain rfl : a = ':' := eq_of_toLower_eq (by decide) ha
  obtain rfl : b = ':' := eq_of_toLower_eq (by decide) hb
  obtain rfl : w₆ = [':'] := eq_of_map_toLower (by decide) h₆
  refine ⟨[c, d, e, f], rfl, ?_⟩
  rcases eq_f_of_toLower hc with rfl | rfl <;> rcases eq_f_of_toLower hd with rfl | rfl <;>
    rcases eq_f_of_toLower he with rfl | rfl <;> rcases eq_f_of_toLower hf with rfl | rfl <;> decide

theorem ipv4Of_of_dotted (h : isIPv6 s = true) (hv : addressValue s = some v)
    (hdotted : Dotted s.toList) :
    ipv4Of v = some (ipv4Value ((s.toList.map Char.toLower).drop 7)) := by
  obtain ⟨⟨v4, hv4⟩, hip⟩ := hdotted
  rw [← hv4] at hip ⊢
  rw [show ("::ffff:".toList ++ v4).drop 7 = v4 from rfl] at hip ⊢
  obtain ⟨mark, low, hsplit, hmark, hlow⟩ := List.map_eq_append_iff.mp hv4.symm
  obtain rfl : low = v4 := by
    rw [← hlow] at hip ⊢
    exact (eq_of_isIPv4Chars_toLower hip).symm
  obtain ⟨t, rfl, ht, hvalue⟩ : ∃ t, mark = ':' :: ':' :: (t ++ [':']) ∧ isGroup t = true ∧
      hexadecimalValue t = 65535 := mark_spec hmark
  have htext : s.toList = ':' :: ':' :: (t ++ ':' :: low) := by
    rw [hsplit]
    simp
  have hzone : '%' ∉ s.toList := by
    rw [htext]
    simp [percent_notMem_of_isGroup ht, percent_notMem_of_isIPv4Chars hip]
  have haddr : addressChars s = ':' :: ':' :: (t ++ ':' :: low) := by
    rw [addressChars, List.splitOn_eq_singleton hzone, List.headD_cons, htext]
  obtain ⟨-, hgroups⟩ := mapped_spec ht hip
  have hlt := ipv4Value_lt hip
  rw [addressValue_of_isIPv6 h, haddr, hgroups, hvalue, Option.some.injEq] at hv
  rw [ipv4Of_eq_some, ← hv]
  simp only [groupsValue, List.foldl_cons, List.foldl_nil]
  omega

/-- **An IPv6 address is taken for what its spelling and its number say.** -/
theorem classifyIp_eq (h : isIPv6 s = true) (hv : addressValue s = some v) :
    classifyIp s = readAs s.toList v := by
  have h4 := not_isIPv4_of_isIPv6 h
  rw [classifyIp, show isIP s = 6 by rw [isIP, if_neg h4, if_pos h], if_neg (by decide), if_pos rfl]
  have hcmp : ∀ ds : List Char, ds.all (fun d ↦ !decide ('a' ≤ d ∧ d ≤ 'z')) = true →
      ds.map Char.toLower = ds → (s.toList.map Char.toLower = ds ↔ s.toList = ds) :=
    fun _ ↦ map_toLower_eq_iff
  unfold classifyIPv6 readAs
  refine if_congr ?_ rfl (if_congr ?_ rfl ?_)
  · rw [hcmp _ (by decide) (by decide), hcmp _ (by decide) (by decide)]
    simp [unspecifiedSpellings]
  · rw [hcmp _ (by decide) (by decide), hcmp _ (by decide) (by decide)]
    simp [loopbackSpellings]
  · by_cases hdotted : Dotted s.toList
    · rw [if_pos hdotted, if_pos (show _ ∧ _ from hdotted), classifyIPv4_eq hdotted.2]
      exact congrArg ipv4Class (ipv4Of_eq_some.mp (ipv4Of_of_dotted h hv hdotted)).2.symm
    · rw [if_neg hdotted, if_neg (show ¬ (_ ∧ _) from hdotted)]
      exact prefixClass_toLower h hv

theorem classifyIp_of_isIPv4 (h : isIPv4 s = true) :
    classifyIp s = ipv4Class (ipv4Value s.toList) := by
  rw [classifyIp, show isIP s = 4 from if_pos h, if_pos rfl, classifyIPv4_eq h]

theorem value_of_unspecified (h : s.toList ∈ unspecifiedSpellings) : addressValue s = some 0 := by
  have hall : ∀ ds ∈ unspecifiedSpellings, addressValue (String.ofList ds) = some 0 := by
    decide +kernel
  rw [← String.ofList_toList (s := s)]
  exact hall _ h

theorem value_of_loopback (h : s.toList ∈ loopbackSpellings) : addressValue s = some 1 := by
  have hall : ∀ ds ∈ loopbackSpellings, addressValue (String.ofList ds) = some 1 := by
    decide +kernel
  rw [← String.ofList_toList (s := s)]
  exact hall _ h

/-! ## Canonical texts -/

theorem head_hexText (h : n < 65536) (hhead : (hexText n).head? = some '0') : n = 0 := by
  have hdigit : ∀ d : Fin 16, hexDigit d = '0' → d = 0 := by decide +kernel
  have hzero : ∀ {d : Nat}, d < 16 → some (hexDigit d) = some '0' → d = 0 := fun hd heq ↦
    congrArg Fin.val (hdigit ⟨_, hd⟩ (Option.some.inj heq))
  unfold hexText at hhead
  split at hhead
  · exact hzero (by omega) hhead
  · split at hhead
    · have := hzero (by omega) hhead
      omega
    · split at hhead
      · have := hzero (by omega) hhead
        omega
      · have := hzero (by omega) hhead
        omega

theorem head_joinGroups {gs : List Nat} (h : ∀ g ∈ gs, g < 65536) :
    (joinGroups gs).head? = gs.head?.bind fun g ↦ (hexText g).head? := by
  cases gs with
  | nil => rfl
  | cons g gs =>
    obtain ⟨c, cs, hcs⟩ := List.exists_cons_of_ne_nil
      (isGroup_spec (isGroup_hexText (h g List.mem_cons_self))).1
    rw [joinGroups, List.map_cons, Lib.intercalate_cons, Lib.headed, hcs, List.head?_cons,
      Option.bind_some, hcs]
    split <;> rfl

theorem head_canonicalIPv6 {gs : List Nat} (hlen : gs.length = 8) (h : ∀ g ∈ gs, g < 65536)
    (hhead : (canonicalIPv6 gs).head? = some '0') : gs.head? = some 0 := by
  obtain ⟨g, gs, rfl⟩ := List.exists_cons_of_length_eq_add_one hlen
  have hg : (hexText g).head? = some '0' → (g :: gs).head? = some 0 := fun hzero ↦
    congrArg some (head_hexText (h g List.mem_cons_self) hzero)
  unfold canonicalIPv6 at hhead
  split at hhead
  · cases hhead
  · dsimp only at hhead
    split at hhead
    · generalize (longestZeros (g :: gs)).1 = i at hhead
      cases i with
      | zero => cases hhead
      | succ i =>
        have hjoin : (joinGroups (g :: gs.take i)).head? = (hexText g).head? :=
          head_joinGroups fun g hg ↦ h g (List.mem_of_mem_take (List.take_succ_cons ▸ hg))
        have hne := (isGroup_spec (isGroup_hexText (h g List.mem_cons_self))).1
        rw [List.take_succ_cons, List.head?_append, hjoin,
          List.head?_eq_some_head hne, Option.some_or, ← List.head?_eq_some_head hne] at hhead
        exact hg hhead
    · rw [head_joinGroups h] at hhead
      exact hg hhead

theorem toLower_of_isDecimal (h : isDecimal c = true) : c.toLower = c := by
  simp only [isDecimal, decide_eq_true_eq, Char.le_def, UInt32.le_iff_toNat_le] at h
  refine dif_neg fun hupper ↦ ?_
  have hA := UInt32.le_iff_toNat_le.mp hupper.1
  have h9 : '9'.val.toNat = 57 := rfl
  have hAn : 'A'.val.toNat = 65 := rfl
  omega

theorem dotted_canonicalIPv6 {high low : Nat} (hh : high < 65536) (hl : low < 65536) :
    Dotted (canonicalIPv6 [0, 0, 0, 0, 0, 65535, high, low]) := by
  obtain ⟨hip, -⟩ := dottedText_spec (n := high * 65536 + low) (by omega)
  have hlower : (dottedText (high * 65536 + low)).map Char.toLower =
      dottedText (high * 65536 + low) := by
    refine (List.map_congr_left fun c hc ↦ ?_).trans (List.map_id _)
    rcases mem_isIPv4Chars hip hc with rfl | hdec
    · rfl
    · exact toLower_of_isDecimal hdec
  change "::ffff:".toList <+: List.map _ ("::ffff:".toList ++ _) ∧
    isIPv4Chars (List.drop 7 (List.map _ ("::ffff:".toList ++ _))) = true
  rw [List.map_append, hlower]
  exact ⟨⟨_, rfl⟩, hip⟩

def numberClass (v : Nat) : IpClass :=
  if v = 0 then .unspecified
  else if v = 1 then .loopback
  else if v / 4294967296 = 65535 then ipv4Class (v % 4294967296)
  else prefixClass (hexText (v / 2 ^ 112))

/-- **The canonical text of an address is taken for what its number says.** -/
theorem classifyIp_canonicalText (h : isIP s ≠ 0) (hv : addressValue s = some v) :
    classifyIp (canonicalText s) = numberClass v := by
  unfold canonicalText numberClass
  by_cases h4 : isIPv4 s = true
  · -- an IPv4 address is its own canonical text
    have hlt := ipv4Value_lt (show isIPv4Chars s.toList = true from h4)
    rw [addressValue_of_isIPv4 h4, Option.some.injEq] at hv
    rw [if_pos h4, classifyIp_of_isIPv4 h4, ← hv, if_neg (by omega), if_neg (by omega),
      if_pos (by omega)]
    congr 1
    omega
  · have h6 : isIPv6 s = true := by
      by_contra h6
      exact h (by rw [isIP, if_neg h4, if_neg h6])
    obtain ⟨hlen, hlt⟩ := ipv6Groups_spec (isIPv6_spec h6).1
    obtain ⟨hcan, hgroups⟩ := canonicalIPv6_spec hlen hlt
    obtain ⟨h6', haddr⟩ := isIPv6_of_chars (percent_notMem_canonicalIPv6 hlen hlt) hcan
    have hvgs : groupsValue (ipv6Groups (addressChars s)) = v :=
      Option.some.inj ((addressValue_of_isIPv6 h6).symm.trans hv)
    generalize ipv6Groups (addressChars s) = gs at *
    have hv' : addressValue (String.ofList (canonicalIPv6 gs)) = some v := by
      rw [addressValue_of_isIPv6 h6', haddr, hgroups, hvgs]
    rw [if_neg h4, classifyIp_eq h6' hv', String.toList_ofList]
    unfold readAs
    by_cases hv0 : v = 0
    · have hgs := groups_eq_of_lt hlen hlt (by rw [hvgs, hv0]; decide)
      rw [hvgs, hv0] at hgs
      rw [if_pos hv0, if_pos (by rw [hgs]; decide +kernel)]
    · by_cases hv1 : v = 1
      · have hgs := groups_eq_of_lt hlen hlt (by rw [hvgs, hv1]; decide)
        rw [hvgs, hv1] at hgs
        rw [if_neg hv0, if_pos hv1, if_neg (by rw [hgs]; decide +kernel),
          if_pos (by rw [hgs]; decide +kernel)]
      · have hu : canonicalIPv6 gs ∉ unspecifiedSpellings := fun hmem ↦ hv0 <|
          Option.some.inj (hv'.symm.trans (value_of_unspecified (by rwa [String.toList_ofList])))
        have hl : canonicalIPv6 gs ∉ loopbackSpellings := fun hmem ↦ hv1 <|
          Option.some.inj (hv'.symm.trans (value_of_loopback (by rwa [String.toList_ofList])))
        rw [if_neg hv0, if_neg hv1, if_neg hu, if_neg hl]
        by_cases hmapped : v / 4294967296 = 65535
        · have hgs := groups_eq_of_lt hlen hlt (by rw [hvgs]; omega)
          rw [hvgs, hmapped] at hgs
          rw [if_pos hmapped, if_pos]
          rw [hgs]
          exact dotted_canonicalIPv6 (Nat.div_lt_of_lt_mul (Nat.mod_lt v (by decide)))
            (Nat.mod_lt v (by decide))
        · have hdotted : ¬ Dotted (canonicalIPv6 gs) := fun hd ↦ hmapped
            (ipv4Of_eq_some.mp (ipv4Of_of_dotted h6' hv' (by rwa [String.toList_ofList]))).1
          rw [if_neg hmapped, if_neg hdotted]
          split
          · rename_i hzero
            have hhead := (head_eq_div hlen hlt).symm.trans (head_canonicalIPv6 hlen hlt hzero)
            rw [hvgs, Option.some.injEq] at hhead
            rw [hhead, prefixClass_of_head (by decide)]
          · rfl

end

end Shellius.QuickConnect
