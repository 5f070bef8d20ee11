import Shellius.Net.Groups

/-!
# Canonical texts of addresses

Of the many texts of an IPv6 address one is canonical: lower case, no leading zeros, `::` for the
first of the longest runs of at least two groups that are zero, and the last two groups as an IPv4
address if it is a mapped one.  An IPv4 address has no other text than its own.

The canonical text of an address is a text of this address (`ipv6Groups_canonicalIPv6`).
-/

namespace Shellius

/-! ## Groups and octets -/

/-- A hexadecimal digit, in lower case. -/
def hexDigit (n : Nat) : Char := "0123456789abcdef".toList.getD n '0'

/-- A group, in lower case and without leading zeros. -/
def hexText (g : Nat) : List Char :=
  if g < 16 then [hexDigit g]
  else if g < 256 then [hexDigit (g / 16), hexDigit (g % 16)]
  else if g < 4096 then [hexDigit (g / 256), hexDigit (g / 16 % 16), hexDigit (g % 16)]
  else [hexDigit (g / 4096), hexDigit (g / 256 % 16), hexDigit (g / 16 % 16), hexDigit (g % 16)]

/-- Four octets, in decimal. -/
def dottedText (n : Nat) : List Char :=
  ['.'].intercalate ([n / 16777216, n / 65536 % 256, n / 256 % 256, n % 256].map (Nat.toDigits 10))

section

variable {g n : Nat} {t : List Char}

theorem hexDigit_spec (h : n < 16) :
    isHexadecimal (hexDigit n) = true ∧ hexadecimalDigit (hexDigit n) = n := by
  have hall : ∀ n : Fin 16,
      isHexadecimal (hexDigit n) = true ∧ hexadecimalDigit (hexDigit n) = n := by decide +kernel
  exact hall ⟨n, h⟩

theorem toLower_eq_hexDigit {c : Char} (h : isHexadecimal c = true) :
    c.toLower = hexDigit (hexadecimalDigit c) :=
  forall_hexadecimal (P := fun c ↦ c.toLower = hexDigit (hexadecimalDigit c)) (by decide +kernel) h

theorem hexadecimalDigit_pos {c : Char} (h : isHexadecimal c = true) (hc : c ≠ '0') :
    0 < hexadecimalDigit c :=
  forall_hexadecimal (P := fun c ↦ c ≠ '0' → 0 < hexadecimalDigit c) (by decide +kernel) h hc

theorem isGroup_hexText (h : g < 65536) : isGroup (hexText g) = true := by
  unfold hexText
  refine decide_eq_true ?_
  split_ifs
  · simp [(hexDigit_spec (n := g) (by omega)).1]
  · simp [(hexDigit_spec (n := g / 16) (by omega)).1, (hexDigit_spec (n := g % 16) (by omega)).1]
  · simp [(hexDigit_spec (n := g / 256) (by omega)).1,
      (hexDigit_spec (n := g / 16 % 16) (by omega)).1, (hexDigit_spec (n := g % 16) (by omega)).1]
  · simp [(hexDigit_spec (n := g / 4096) (by omega)).1,
      (hexDigit_spec (n := g / 256 % 16) (by omega)).1,
      (hexDigit_spec (n := g / 16 % 16) (by omega)).1, (hexDigit_spec (n := g % 16) (by omega)).1]

theorem hexadecimalValue_hexText (h : g < 65536) : hexadecimalValue (hexText g) = g := by
  unfold hexText hexadecimalValue
  split_ifs
  · simp [(hexDigit_spec (n := g) (by omega)).2]
  · simp only [List.foldl_cons, List.foldl_nil, (hexDigit_spec (n := g / 16) (by omega)).2,
      (hexDigit_spec (n := g % 16) (by omega)).2]
    omega
  · simp only [List.foldl_cons, List.foldl_nil, (hexDigit_spec (n := g / 256) (by omega)).2,
      (hexDigit_spec (n := g / 16 % 16) (by omega)).2, (hexDigit_spec (n := g % 16) (by omega)).2]
    omega
  · simp only [List.foldl_cons, List.foldl_nil, (hexDigit_spec (n := g / 4096) (by omega)).2,
      (hexDigit_spec (n := g / 256 % 16) (by omega)).2,
      (hexDigit_spec (n := g / 16 % 16) (by omega)).2, (hexDigit_spec (n := g % 16) (by omega)).2]
    omega

theorem hexText_snoc {d : Nat} (h0 : 0 < n) (hn : n < 4096) (hd : d < 16) :
    hexText (16 * n + d) = hexText n ++ [hexDigit d] := by
  unfold hexText
  split_ifs <;> first | omega | simp only [List.cons_append, List.nil_append]
  all_goals congr 2 <;> first | omega | (congr 2 <;> omega) | skip
  all_goals congr 1 <;> first | omega | (congr 2 <;> omega)

theorem hexText_digit (h : n < 16) : hexText n = [hexDigit n] := if_pos h

/-- A group without leading zeros is canonical but for its case. -/
theorem map_toLower_eq_hexText (h : isGroup t = true) (hpad : t.head? = some '0' → t.length = 1) :
    t.map Char.toLower = hexText (hexadecimalValue t) := by
  obtain ⟨hne, hlen, hall⟩ := isGroup_spec h
  have hdigit := fun c hc ↦ List.all_eq_true.mp hall c hc
  have hlower : ∀ c ∈ t, c.toLower = hexDigit (hexadecimalDigit c) := fun c hc ↦
    toLower_eq_hexDigit (hdigit c hc)
  have hlt : ∀ c ∈ t, hexadecimalDigit c < 16 := fun c hc ↦ hexadecimalDigit_lt (hdigit c hc)
  have hpos : ∀ c cs, t = c :: cs → cs ≠ [] → 0 < hexadecimalDigit c := by
    rintro c cs rfl hcs
    refine hexadecimalDigit_pos (hdigit c List.mem_cons_self) ?_
    rintro rfl
    exact hcs (List.length_eq_zero_iff.mp (Nat.succ.inj (hpad rfl)))
  unfold hexadecimalValue
  -- one to four digits
  rcases t with _ | ⟨a, _ | ⟨b, _ | ⟨c, _ | ⟨d, _ | ⟨e, t⟩⟩⟩⟩⟩
  · exact absurd rfl hne
  · simp only [List.forall_mem_cons] at hlower hlt
    simp only [List.map_cons, List.map_nil, List.foldl_cons, List.foldl_nil, hlower, Nat.mul_zero,
      Nat.zero_add]
    rw [hexText_digit hlt.1]
  · have h0 := hpos a _ rfl (List.cons_ne_nil _ _)
    simp only [List.forall_mem_cons] at hlower hlt
    simp only [List.map_cons, List.map_nil, List.foldl_cons, List.foldl_nil, hlower, Nat.mul_zero,
      Nat.zero_add]
    rw [hexText_snoc h0 (by omega) hlt.2.1, hexText_digit hlt.1]
    rfl
  · have h0 := hpos a _ rfl (List.cons_ne_nil _ _)
    simp only [List.forall_mem_cons] at hlower hlt
    simp only [List.map_cons, List.map_nil, List.foldl_cons, List.foldl_nil, hlower, Nat.mul_zero,
      Nat.zero_add]
    rw [hexText_snoc (by omega) (by omega) hlt.2.2.1, hexText_snoc h0 (by omega) hlt.2.1,
      hexText_digit hlt.1]
    rfl
  · have h0 := hpos a _ rfl (List.cons_ne_nil _ _)
    simp only [List.forall_mem_cons] at hlower hlt
    simp only [List.map_cons, List.map_nil, List.foldl_cons, List.foldl_nil, hlower, Nat.mul_zero,
      Nat.zero_add]
    rw [hexText_snoc (by omega) (by omega) hlt.2.2.2.1, hexText_snoc (by omega) (by omega) hlt.2.2.1,
      hexText_snoc h0 (by omega) hlt.2.1, hexText_digit hlt.1]
    rfl
  · simp only [List.length_cons] at hlen
    omega

theorem octetText_spec (h : n < 256) :
    isOctet (Nat.toDigits 10 n) = true ∧ decimalValue (Nat.toDigits 10 n) = n := by
  have hall : ∀ n : Fin 256, isOctet (Nat.toDigits 10 n) = true ∧
      decimalValue (Nat.toDigits 10 n) = n := by decide +kernel
  exact hall ⟨n, h⟩

theorem dottedText_spec (h : n < 4294967296) :
    isIPv4Chars (dottedText n) = true ∧ ipv4Value (dottedText n) = n := by
  have ha := octetText_spec (n := n / 16777216) (by omega)
  have hb := octetText_spec (n := n / 65536 % 256) (by omega)
  have hc := octetText_spec (n := n / 256 % 256) (by omega)
  have hd := octetText_spec (n := n % 256) (by omega)
  have hdot : ∀ {o : List Char}, isOctet o = true → '.' ∉ o := fun ho hmem ↦
    ne_dot_of_isHexadecimal (isHexadecimal_of_isDecimal
      (List.all_eq_true.mp (isOctet_spec ho).2.2.1 _ hmem)) rfl
  have hsplit : (dottedText n).splitOn '.' = [Nat.toDigits 10 (n / 16777216),
      Nat.toDigits 10 (n / 65536 % 256), Nat.toDigits 10 (n / 256 % 256),
      Nat.toDigits 10 (n % 256)] := by
    refine List.splitOn_intercalate '.' ?_ (List.cons_ne_nil _ _)
    simp only [List.map_cons, List.map_nil, List.forall_mem_cons]
    exact ⟨hdot ha.1, hdot hb.1, hdot hc.1, hdot hd.1, fun _ hl ↦ absurd hl List.not_mem_nil⟩
  constructor
  · refine decide_eq_true ?_
    rw [hsplit]
    exact ⟨rfl, by simp [ha.1, hb.1, hc.1, hd.1]⟩
  · rw [ipv4Value_eq hsplit, ha.2, hb.2, hc.2, hd.2]
    omega

end

/-! ## The text -/

/-- Where the longest run of zeros begins, the first of them if there are several, and how long it
is. -/
def longestZeros : List Nat → Nat × Nat
  | [] => (0, 0)
  | g :: gs =>
    let here := ((g :: gs).takeWhile (· = 0)).length
    let later := longestZeros gs
    if later.2 ≤ here then (0, here) else (later.1 + 1, later.2)

/-- Groups with colons between them. -/
def joinGroups (gs : List Nat) : List Char := [':'].intercalate (gs.map hexText)

/-- The canonical text of eight groups. -/
def canonicalIPv6 (gs : List Nat) : List Char :=
  match gs with
  | [0, 0, 0, 0, 0, 65535, high, low] => "::ffff:".toList ++ dottedText (high * 65536 + low)
  | gs =>
    let (i, n) := longestZeros gs
    if 2 ≤ n then joinGroups (gs.take i) ++ ':' :: ':' :: joinGroups (gs.drop (i + n))
    else joinGroups gs

theorem longestZeros_spec (gs : List Nat) :
    gs.take (longestZeros gs).1 ++ List.replicate (longestZeros gs).2 0 ++
      gs.drop ((longestZeros gs).1 + (longestZeros gs).2) = gs := by
  induction gs with
  | nil => rfl
  | cons g gs ih =>
    rw [longestZeros]
    split
    · -- the run at hand is taken off by `takeWhile`
      have hrun : (g :: gs).takeWhile (· = 0) =
          List.replicate ((g :: gs).takeWhile (· = 0)).length 0 :=
        List.eq_replicate_of_mem fun x hx ↦ by simpa using List.mem_takeWhile_imp hx
      have hdrop : ((g :: gs).takeWhile (· = 0) ++ (g :: gs).dropWhile (· = 0)).drop
          ((g :: gs).takeWhile (· = 0)).length = (g :: gs).dropWhile (· = 0) := List.drop_left
      rw [List.takeWhile_append_dropWhile] at hdrop
      dsimp only
      rw [List.take_zero, List.nil_append, Nat.zero_add, ← hrun, hdrop,
        List.takeWhile_append_dropWhile]
    · rw [List.take_succ_cons, Nat.add_right_comm, List.drop_succ_cons, List.cons_append,
        List.cons_append, ih]

section

variable {w rest : List Char} {ws : List (List Char)} {gs : List Nat} {atEnd : Bool}

theorem splitGap_append (h : ':' ∉ w) :
    splitGap (w ++ rest) = (splitGap rest).map fun sides ↦ (w ++ sides.1, sides.2) := by
  induction w with
  | nil => cases hrest : splitGap rest <;> simp [hrest]
  | cons c w ih =>
    have hc : c ≠ ':' := fun heq ↦ h (heq ▸ List.mem_cons_self)
    rw [List.cons_append, splitGap.eq_2 _ _ fun _ heq _ ↦ hc heq,
      ih fun hmem ↦ h (List.mem_cons_of_mem _ hmem), Option.map_map]
    rfl

theorem splitGap_colon (hw : w ≠ []) (h : ':' ∉ w) :
    splitGap (':' :: (w ++ rest)) =
      (splitGap (w ++ rest)).map fun sides ↦ (':' :: sides.1, sides.2) := by
  obtain ⟨c, w, rfl⟩ := List.exists_cons_of_ne_nil hw
  rw [List.cons_append]
  refine splitGap.eq_2 _ _ fun _ _ heq ↦ h ?_
  rw [← (List.cons.inj heq).1]
  exact List.mem_cons_self

theorem splitGap_intercalate (h : ∀ w ∈ ws, w ≠ [] ∧ ':' ∉ w) (tail : List Char) :
    splitGap ([':'].intercalate ws ++ tail) =
      (splitGap tail).map fun sides ↦ ([':'].intercalate ws ++ sides.1, sides.2) := by
  induction ws with
  | nil => cases htail : splitGap tail <;> simp [htail]
  | cons w ws ih =>
    obtain ⟨hw, hws⟩ := List.forall_mem_cons.mp h
    rw [Lib.intercalate_cons, Lib.headed]
    split
    · exact splitGap_append hw.2
    · rename_i hne
      obtain ⟨v, vs, rfl⟩ := List.exists_cons_of_ne_nil hne
      have hv := hws v List.mem_cons_self
      have hcolon : splitGap (':' :: ([':'].intercalate (v :: vs) ++ tail)) =
          (splitGap ([':'].intercalate (v :: vs) ++ tail)).map fun sides ↦
            (':' :: sides.1, sides.2) := by
        rw [Lib.intercalate_cons, Lib.headed]
        split
        · exact splitGap_colon hv.1 hv.2
        · rw [List.append_assoc]
          exact splitGap_colon hv.1 hv.2
      rw [List.append_assoc, List.cons_append, splitGap_append hw.2, hcolon, ih hws,
        Option.map_map, Option.map_map]
      congr 1
      funext sides
      simp

theorem words_hexText (h : ∀ g ∈ gs, g < 65536) : ∀ w ∈ gs.map hexText, w ≠ [] ∧ ':' ∉ w := by
  intro w hw
  obtain ⟨g, hg, rfl⟩ := List.mem_map.mp hw
  have hgroup := isGroup_hexText (h g hg)
  exact ⟨(isGroup_spec hgroup).1, colon_notMem_of_isGroup hgroup⟩

theorem joinGroups_eq_nil (h : ∀ g ∈ gs, g < 65536) : joinGroups gs = [] ↔ gs = [] := by
  rw [joinGroups, Lib.intercalate_eq_nil fun w hw ↦ (words_hexText h w hw).1, List.map_eq_nil_iff]

theorem splitGap_joinGroups (h : ∀ g ∈ gs, g < 65536) : splitGap (joinGroups gs) = none := by
  have hgap := splitGap_intercalate (words_hexText h) []
  rwa [List.append_nil] at hgap

theorem splitGap_joinGroups_gap (h : ∀ g ∈ gs, g < 65536) :
    splitGap (joinGroups gs ++ ':' :: ':' :: rest) = some (joinGroups gs, rest) := by
  have hgap := splitGap_intercalate (words_hexText h) (':' :: ':' :: rest)
  rwa [splitGap, Option.map_some, List.append_nil] at hgap

theorem splitOn_joinGroups (hne : gs ≠ []) (h : ∀ g ∈ gs, g < 65536) :
    (joinGroups gs).splitOn ':' = gs.map hexText :=
  List.splitOn_intercalate ':' (fun w hw ↦ (words_hexText h w hw).2)
    (fun hnil ↦ hne (List.map_eq_nil_iff.mp hnil))

theorem isGroup_of_mem_hexText (h : ∀ g ∈ gs, g < 65536) :
    (gs.map hexText).all isGroup = true := by
  rw [List.all_map, List.all_eq_true]
  exact fun g hg ↦ isGroup_hexText (h g hg)

theorem groupCount_joinGroups (h : ∀ g ∈ gs, g < 65536) :
    groupCount atEnd (joinGroups gs) = some gs.length := by
  unfold groupCount
  by_cases hgs : gs = []
  · rw [if_pos ((joinGroups_eq_nil h).mpr hgs), hgs, List.length_nil]
  · rw [if_neg fun hnil ↦ hgs ((joinGroups_eq_nil h).mp hnil), splitOn_joinGroups hgs h]
    dsimp only
    rw [if_pos (isGroup_of_mem_hexText h), List.length_map]

theorem sideGroups_joinGroups (h : ∀ g ∈ gs, g < 65536) : sideGroups (joinGroups gs) = gs := by
  unfold sideGroups
  by_cases hgs : gs = []
  · rw [if_pos ((joinGroups_eq_nil h).mpr hgs), hgs]
  · rw [if_neg fun hnil ↦ hgs ((joinGroups_eq_nil h).mp hnil), splitOn_joinGroups hgs h]
    have hlast : isIPv4Chars ((gs.map hexText).getLast?.getD []) = false := by
      rw [List.getLast?_map, List.getLast?_eq_some_getLast hgs, Option.map_some, Option.getD_some]
      exact not_isIPv4Chars_of_isGroup (isGroup_hexText (h _ (List.getLast_mem hgs)))
    dsimp only
    rw [if_neg (Bool.eq_false_iff.mp hlast), List.map_map]
    exact (List.map_congr_left fun g hg ↦ hexadecimalValue_hexText (h g hg)).trans (List.map_id' gs)

/-! ## Mapped addresses -/

/-- `ffff:` and an IPv4 address is a side of `::`, of three groups. -/
theorem mapped_side {t v4 : List Char} (ht : isGroup t = true) (h : isIPv4Chars v4 = true) :
    groupCount true (t ++ ':' :: v4) = some 3 ∧ sideGroups (t ++ ':' :: v4) =
      [hexadecimalValue t, ipv4Value v4 / 65536, ipv4Value v4 % 65536] := by
  have hsplit : (t ++ ':' :: v4).splitOn ':' = [t, v4] := by
    have hjoin := @List.splitOn_intercalate _ [t, v4] _ _ ':' ?_ (List.cons_ne_nil _ _)
    · rwa [Lib.intercalate_cons, Lib.headed, if_neg (List.cons_ne_nil _ _),
        Lib.intercalate_cons] at hjoin
    · simp only [List.forall_mem_cons]
      exact ⟨colon_notMem_of_isGroup ht, colon_notMem_of_isIPv4Chars h,
        fun _ hl ↦ absurd hl List.not_mem_nil⟩
  have hne : t ++ ':' :: v4 ≠ [] := by simp
  have hv4 : isGroup v4 = false := by
    rw [Bool.eq_false_iff]
    exact fun hgroup ↦ Bool.eq_false_iff.mp (not_isIPv4Chars_of_isGroup hgroup) h
  unfold groupCount sideGroups
  rw [if_neg hne, if_neg hne, hsplit]
  simp [ht, hv4, h]

/-- A mapped address is one, whatever case its `ffff` has. -/
theorem mapped_spec {t v4 : List Char} (ht : isGroup t = true) (h : isIPv4Chars v4 = true) :
    isIPv6Chars (':' :: ':' :: (t ++ ':' :: v4)) = true ∧
      ipv6Groups (':' :: ':' :: (t ++ ':' :: v4)) =
        [0, 0, 0, 0, 0, hexadecimalValue t, ipv4Value v4 / 65536, ipv4Value v4 % 65536] := by
  obtain ⟨hcount, hgroups⟩ := mapped_side ht h
  unfold isIPv6Chars ipv6Groups
  rw [splitGap]
  dsimp only
  rw [hcount, hgroups, show groupCount false [] = some 0 from rfl, show sideGroups [] = [] from rfl]
  exact ⟨rfl, rfl⟩

theorem canonicalIPv6_spec (hlen : gs.length = 8) (h : ∀ g ∈ gs, g < 65536) :
    isIPv6Chars (canonicalIPv6 gs) = true ∧ ipv6Groups (canonicalIPv6 gs) = gs := by
  unfold canonicalIPv6
  split
  · rename_i high low
    simp only [List.forall_mem_cons] at h
    obtain ⟨hip, hvalue⟩ := dottedText_spec (n := high * 65536 + low) (by omega)
    have hspec := mapped_spec (t := "ffff".toList) (by decide) hip
    have hhigh : (high * 65536 + low) / 65536 = high := by omega
    have hlow : (high * 65536 + low) % 65536 = low := by omega
    rw [hvalue, show hexadecimalValue "ffff".toList = 65535 by decide, hhigh, hlow] at hspec
    exact hspec
  · dsimp only
    split
    · rename_i hrun
      have hspec := longestZeros_spec gs
      generalize (longestZeros gs).1 = i at hspec ⊢
      generalize (longestZeros gs).2 = n at hrun hspec ⊢
      have hl : ∀ g ∈ gs.take i, g < 65536 := fun g hg ↦ h g (List.mem_of_mem_take hg)
      have hr : ∀ g ∈ gs.drop (i + n), g < 65536 := fun g hg ↦ h g (List.mem_of_mem_drop hg)
      have hlength := congrArg List.length hspec
      rw [List.length_append, List.length_append, List.length_replicate] at hlength
      unfold isIPv6Chars ipv6Groups
      rw [splitGap_joinGroups_gap hl]
      dsimp only
      rw [groupCount_joinGroups hl, groupCount_joinGroups hr, sideGroups_joinGroups hl,
        sideGroups_joinGroups hr]
      refine ⟨decide_eq_true (by omega), ?_⟩
      rwa [show 8 - (gs.take i).length - (gs.drop (i + n)).length = n by omega]
    · unfold isIPv6Chars ipv6Groups
      rw [splitGap_joinGroups h]
      dsimp only
      rw [groupCount_joinGroups h, sideGroups_joinGroups h, hlen]
      exact ⟨rfl, rfl⟩

end

/-! ## Canonical texts of all addresses -/

/-- An address without the name of its zone. -/
def addressChars (s : String) : List Char := (s.toList.splitOn '%').headD []

def canonicalText (s : String) : String :=
  if isIPv4 s then s else String.ofList (canonicalIPv6 (ipv6Groups (addressChars s)))

section

variable {s : String} {gs : List Nat}

/-- What `net.isIPv6` accepts is an address, and the name of a zone if there is one. -/
theorem isIPv6_spec (h : isIPv6 s = true) : isIPv6Chars (addressChars s) = true ∧
    (s.toList = addressChars s ∨ ∃ zone, s.toList = addressChars s ++ '%' :: zone) := by
  unfold isIPv6 at h
  unfold addressChars
  have hjoin := @List.intercalate_splitOn _ s.toList _ _ '%'
  split at h
  · rename_i address hsplit
    rw [hsplit] at hjoin ⊢
    exact ⟨h, .inl (by simpa using hjoin.symm)⟩
  · rename_i address zone hsplit
    rw [hsplit] at hjoin ⊢
    exact ⟨(of_decide_eq_true h).1, .inr ⟨zone, by simpa [List.intercalate_cons_cons] using hjoin.symm⟩⟩
  · cases h

theorem not_isIPv4_of_isIPv6 (h : isIPv6 s = true) : ¬ isIPv4 s = true := by
  intro h4
  obtain ⟨hchars, htext⟩ := isIPv6_spec h
  have hcolon : ':' ∈ addressChars s := by
    rcases first_group hchars with ⟨rest, heq, -⟩ | ⟨t, rest, -, heq, -⟩ <;> rw [heq] <;> simp
  refine colon_notMem_of_isIPv4Chars h4 ?_
  rcases htext with heq | ⟨zone, heq⟩ <;> rw [heq] <;> simp [hcolon]

theorem isIPv6_of_chars {cs : List Char} (hzone : '%' ∉ cs) (h : isIPv6Chars cs = true) :
    isIPv6 (String.ofList cs) = true ∧ addressChars (String.ofList cs) = cs := by
  unfold isIPv6 addressChars
  rw [String.toList_ofList, List.splitOn_eq_singleton hzone]
  exact ⟨h, rfl⟩

theorem percent_notMem_canonicalIPv6 (hlen : gs.length = 8) (h : ∀ g ∈ gs, g < 65536) :
    '%' ∉ canonicalIPv6 gs := by
  have hjoin : ∀ gs : List Nat, (∀ g ∈ gs, g < 65536) → '%' ∉ joinGroups gs := by
    intro gs h hmem
    rcases Lib.mem_intercalate hmem with hsep | ⟨w, hw, hin⟩
    · exact absurd hsep (by decide)
    · obtain ⟨g, hg, rfl⟩ := List.mem_map.mp hw
      exact percent_notMem_of_isGroup (isGroup_hexText (h g hg)) hin
  unfold canonicalIPv6
  split
  · rename_i high low
    simp only [List.forall_mem_cons] at h
    obtain ⟨hip, -⟩ := dottedText_spec (n := high * 65536 + low) (by omega)
    intro hmem
    rcases List.mem_append.mp hmem with hmem | hmem
    · exact absurd hmem (by decide)
    · exact percent_notMem_of_isIPv4Chars hip hmem
  · dsimp only
    split
    · simp only [List.mem_append, List.mem_cons, not_or]
      exact ⟨hjoin _ fun g hg ↦ h g (List.mem_of_mem_take hg), by decide, by decide,
        hjoin _ fun g hg ↦ h g (List.mem_of_mem_drop hg)⟩
    · exact hjoin gs h

end

end Shellius
