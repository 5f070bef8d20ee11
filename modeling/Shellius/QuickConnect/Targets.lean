import Shellius.QuickConnect.Guards
import Shellius.QuickConnect.Spellings

/-!
# Which targets are admitted

`resolveTarget` asks `classifyIp` about every address that a host stands for, and that one reads
texts.  A text is taken for what its number says if it is one of the spellings that are compared
with, or if its number is none of those with such a spelling and its first group has no leading
zeros.

So an address that must not be connected to is admitted in other spellings (`admitted_iff`):
`0::1` is the loopback address, and so is `::ffff:7f00:1`.  Link-local and multicast addresses of
IPv6 are refused in all of them, as their first group has four digits that are not zero.
-/

namespace Shellius.QuickConnect

open Shellius

/-- Nothing that must be connected to: loopback, unspecified, link-local and multicast. -/
def Forbidden (v : Nat) : Prop :=
  isLoopbackValue v ∨ isUnspecifiedValue v ∨ isLinkLocalValue v ∨ isMulticastValue v

/-- What an address is taken for depends on the address only: it is what its canonical text is
taken for and, of a mapped address, what the IPv4 address is taken for. -/
def ByNumber (s : String) : Prop :=
  classifyIp s = classifyIp (canonicalText s) ∧ ∀ v ∈ addressValue s, ∀ n ∈ ipv4Of v,
    classifyIp s = classifyIp (String.ofList (dottedText n))

/-- The unspecified address, the loopback address or a mapped address, in a spelling that is
compared with; every spelling of the others. -/
def KnownSpelling (s : String) (v : Nat) : Prop :=
  (v = 0 → s.toList ∈ unspecifiedSpellings) ∧ (v = 1 → s.toList ∈ loopbackSpellings) ∧
    ∀ n ∈ ipv4Of v, isIPv4 s = true ∨ Dotted s.toList

/-- A spelling that does not mislead. -/
structure ReadsRight (s : String) (v : Nat) : Prop where
  unspecified : v = 0 → s.toList ∈ unspecifiedSpellings
  loopback : v = 1 → s.toList ∈ loopbackSpellings
  mapped : ∀ n ∈ ipv4Of v, isIPv4 s = true ∨ Dotted s.toList ∨ ipv4Class n = .publicRange
  padded : v ≠ 0 → v ≠ 1 → ipv4Of v = none → s.toList.head? = some '0' →
    prefixClass (hexText (v / 2 ^ 112)) = .publicRange

section

variable {env : Services} {s : String} {v n : Nat}

/-! ## What a text is taken for -/

theorem knownSpelling_zero : KnownSpelling s 0 ↔ s.toList ∈ unspecifiedSpellings := by
  simp [KnownSpelling, ipv4Of]

theorem knownSpelling_one : KnownSpelling s 1 ↔ s.toList ∈ loopbackSpellings := by
  simp [KnownSpelling, ipv4Of]

theorem knownSpelling_of_ipv4Of (h : ipv4Of v = some n) :
    KnownSpelling s v ↔ isIPv4 s = true ∨ Dotted s.toList := by
  obtain ⟨hdiv, -⟩ := ipv4Of_eq_some.mp h
  have h0 : v ≠ 0 := by omega
  have h1 : v ≠ 1 := by omega
  simp [KnownSpelling, h, h0, h1]

/-- The addresses with a spelling that is compared with. -/
def Special (v : Nat) : Prop := v = 0 ∨ v = 1 ∨ ∃ n, ipv4Of v = some n

theorem isIPv6_of_not_isIPv4 (hv : addressValue s = some v) (h4 : ¬ isIPv4 s = true) :
    isIPv6 s = true := by
  by_contra h6
  rw [addressValue, if_neg h4, if_neg h6] at hv
  cases hv

theorem numberClass_of_ipv4Of (h : ipv4Of v = some n) : numberClass v = ipv4Class n := by
  obtain ⟨hdiv, hmod⟩ := ipv4Of_eq_some.mp h
  rw [numberClass, if_neg (by omega), if_neg (by omega), if_pos hdiv, hmod]

theorem prefixClass_hexText_zero (h : v / 2 ^ 112 = 0) :
    prefixClass (hexText (v / 2 ^ 112)) = .publicRange := by
  rw [h, prefixClass_of_head (by decide)]

theorem readAs_of_not_spelled {text : List Char} (hu : text ∉ unspecifiedSpellings)
    (hl : text ∉ loopbackSpellings) (hd : ¬ Dotted text) : readAs text v =
      if text.head? = some '0' then .publicRange else prefixClass (hexText (v / 2 ^ 112)) := by
  rw [readAs, if_neg hu, if_neg hl, if_neg hd]

theorem classifyIp_of_knownSpelling (hv : addressValue s = some v) (hspecial : Special v)
    (hr : KnownSpelling s v) : classifyIp s = numberClass v := by
  by_cases h4 : isIPv4 s = true
  · rw [classifyIp_of_isIPv4 h4, numberClass_of_ipv4Of (ipv4Of_of_isIPv4 h4 hv)]
  · have h6 := isIPv6_of_not_isIPv4 hv h4
    rw [classifyIp_eq h6 hv, readAs]
    rcases hspecial with rfl | rfl | ⟨n, hn⟩
    · rw [if_pos (knownSpelling_zero.mp hr)]
      rfl
    · have hu : s.toList ∉ unspecifiedSpellings := fun hu ↦
        absurd (Option.some.inj ((value_of_unspecified hu).symm.trans hv)) (by decide)
      rw [if_neg hu, if_pos (knownSpelling_one.mp hr)]
      rfl
    · obtain ⟨hdiv, hmod⟩ := ipv4Of_eq_some.mp hn
      have hu : s.toList ∉ unspecifiedSpellings := fun hu ↦ by
        have := Option.some.inj ((value_of_unspecified hu).symm.trans hv)
        omega
      have hl : s.toList ∉ loopbackSpellings := fun hl ↦ by
        have := Option.some.inj ((value_of_loopback hl).symm.trans hv)
        omega
      rw [if_neg hu, if_neg hl, if_pos (((knownSpelling_of_ipv4Of hn).mp hr).resolve_left h4),
        hmod, numberClass_of_ipv4Of hn]

theorem classifyIp_of_not_knownSpelling (hv : addressValue s = some v) (hspecial : Special v)
    (hr : ¬ KnownSpelling s v) : classifyIp s = .publicRange := by
  have h4 : ¬ isIPv4 s = true := fun h4 ↦
    hr ((knownSpelling_of_ipv4Of (ipv4Of_of_isIPv4 h4 hv)).mpr (.inl h4))
  have h6 := isIPv6_of_not_isIPv4 hv h4
  have hu : s.toList ∉ unspecifiedSpellings := by
    intro hu
    obtain rfl := Option.some.inj ((value_of_unspecified hu).symm.trans hv)
    exact hr (knownSpelling_zero.mpr hu)
  have hl : s.toList ∉ loopbackSpellings := by
    intro hl
    obtain rfl := Option.some.inj ((value_of_loopback hl).symm.trans hv)
    exact hr (knownSpelling_one.mpr hl)
  have hd : ¬ Dotted s.toList := fun hd ↦
    hr ((knownSpelling_of_ipv4Of (ipv4Of_of_dotted h6 hv hd)).mpr (.inr hd))
  have hzero : v / 2 ^ 112 = 0 := by
    rcases hspecial with rfl | rfl | ⟨n, hn⟩
    · rfl
    · rfl
    · have h := ipv4Of_eq_some.mp hn
      omega
  rw [classifyIp_eq h6 hv, readAs_of_not_spelled hu hl hd, prefixClass_hexText_zero hzero]
  split <;> rfl

theorem classifyIp_of_not_special (hv : addressValue s = some v) (hspecial : ¬ Special v) :
    classifyIp s =
      if s.toList.head? = some '0' then .publicRange else prefixClass (hexText (v / 2 ^ 112)) := by
  have h4 : ¬ isIPv4 s = true := fun h4 ↦ hspecial (.inr (.inr ⟨_, ipv4Of_of_isIPv4 h4 hv⟩))
  have h6 := isIPv6_of_not_isIPv4 hv h4
  rw [classifyIp_eq h6 hv]
  refine readAs_of_not_spelled (fun hu ↦ ?_) (fun hl ↦ ?_) fun hd ↦ ?_
  · exact hspecial (.inl (Option.some.inj (hv.symm.trans (value_of_unspecified hu))))
  · exact hspecial (.inr (.inl (Option.some.inj (hv.symm.trans (value_of_loopback hl)))))
  · exact hspecial (.inr (.inr ⟨_, ipv4Of_of_dotted h6 hv hd⟩))

theorem numberClass_of_not_special (hspecial : ¬ Special v) :
    numberClass v = prefixClass (hexText (v / 2 ^ 112)) := by
  rw [numberClass, if_neg fun h ↦ hspecial (.inl h), if_neg fun h ↦ hspecial (.inr (.inl h)),
    if_neg fun h ↦ hspecial (.inr (.inr ⟨_, ipv4Of_eq_some.mpr ⟨h, rfl⟩⟩))]

/-! ## Spellings -/

theorem byNumber_iff_eq (hv : addressValue s = some v) :
    ByNumber s ↔ classifyIp s = numberClass v := by
  have hip : isIP s ≠ 0 := isSome_addressValue.mp (by rw [hv]; rfl)
  rw [ByNumber, classifyIp_canonicalText hip hv]
  refine ⟨And.left, fun heq ↦ ⟨heq, fun v' hv' n hn ↦ ?_⟩⟩
  obtain rfl := Option.some.inj (hv.symm.trans hv')
  have hlt := ipv4Of_eq_some.mp hn
  obtain ⟨hdotted, hvalue⟩ := dottedText_spec (n := n) (by omega)
  have h4 : isIPv4 (String.ofList (dottedText n)) = true := by
    rw [isIPv4, String.toList_ofList]
    exact hdotted
  rw [heq, numberClass_of_ipv4Of hn, classifyIp_of_isIPv4 h4, String.toList_ofList, hvalue]

/-- A text is taken for what its number says if and only if its spelling does not mislead. -/
theorem byNumber_iff (hv : addressValue s = some v) : ByNumber s ↔ ReadsRight s v := by
  rw [byNumber_iff_eq hv]
  by_cases hspecial : Special v
  · by_cases hr : KnownSpelling s v
    · refine iff_of_true (classifyIp_of_knownSpelling hv hspecial hr) ⟨hr.1, hr.2.1, fun n hn ↦ ?_, ?_⟩
      · exact (hr.2.2 n hn).imp_right .inl
      · intro h0 h1 hnone
        rcases hspecial with h | h | ⟨n, hn⟩
        · exact absurd h h0
        · exact absurd h h1
        · cases hn.symm.trans hnone
    · rw [classifyIp_of_not_knownSpelling hv hspecial hr]
      constructor
      · intro hclass
        refine ⟨?_, ?_, fun n hn ↦ .inr (.inr ?_), fun h0 h1 hnone ↦ ?_⟩
        · rintro rfl
          cases hclass
        · rintro rfl
          cases hclass
        · rw [← numberClass_of_ipv4Of hn, hclass]
        · rcases hspecial with h | h | ⟨n, hn⟩
          · exact absurd h h0
          · exact absurd h h1
          · cases hn.symm.trans hnone
      · intro hright
        rcases hspecial with rfl | rfl | ⟨n, hn⟩
        · exact absurd (knownSpelling_zero.mpr (hright.unspecified rfl)) hr
        · exact absurd (knownSpelling_one.mpr (hright.loopback rfl)) hr
        · rw [numberClass_of_ipv4Of hn]
          rcases hright.mapped n hn with h | h | h
          · exact absurd ((knownSpelling_of_ipv4Of hn).mpr (.inl h)) hr
          · exact absurd ((knownSpelling_of_ipv4Of hn).mpr (.inr h)) hr
          · exact h.symm
  · rw [classifyIp_of_not_special hv hspecial, numberClass_of_not_special hspecial]
    have h0 : v ≠ 0 := fun h ↦ hspecial (.inl h)
    have h1 : v ≠ 1 := fun h ↦ hspecial (.inr (.inl h))
    have hnone : ∀ n, ipv4Of v ≠ some n := fun n hn ↦ hspecial (.inr (.inr ⟨n, hn⟩))
    constructor
    · intro hclass
      refine ⟨fun h ↦ absurd h h0, fun h ↦ absurd h h1, fun n hn ↦ absurd hn (hnone n), ?_⟩
      intro _ _ _ hhead
      rw [if_pos hhead] at hclass
      exact hclass.symm
    · intro hright
      split
      · rename_i hhead
        exact (hright.padded h0 h1 (Option.eq_none_iff_forall_ne_some.mpr hnone) hhead).symm
      · rfl

/-! ## Targets -/

theorem prefixClass_multicast (h : n / 256 = 0xff) : prefixClass (hexText n) = .multicast := by
  have hall : ∀ k : Fin 256, prefixClass (hexText (0xff00 + k)) = .multicast := by decide +kernel
  obtain ⟨k, hk, rfl⟩ : ∃ k < 256, n = 0xff00 + k := ⟨n - 0xff00, by omega, by omega⟩
  exact hall ⟨k, hk⟩

theorem numberClass_of_forbidden (h : Forbidden v) :
    numberClass v = .unspecified ∨ numberClass v = .linklocal ∨ numberClass v = .multicast ∨
      numberClass v = .loopback ∧ isLoopbackValue v := by
  rcases h with (rfl | ⟨n, hn, hrange⟩) | (rfl | ⟨n, hn, hrange⟩) | (hrange | ⟨n, hn, hrange⟩) |
    hrange | ⟨n, hn, hrange⟩
  · exact .inr (.inr (.inr ⟨rfl, .inl rfl⟩))
  · refine .inr (.inr (.inr ⟨?_, .inr ⟨n, hn, hrange⟩⟩))
    rw [numberClass_of_ipv4Of hn, ipv4Class, if_pos hrange]
  · exact .inl rfl
  · refine .inl ?_
    rw [numberClass_of_ipv4Of hn, ipv4Class, if_neg (by omega), if_pos hrange]
  · refine .inr (.inl ?_)
    rw [numberClass, if_neg (by omega), if_neg (by omega), if_neg (by omega),
      prefixClass_linkLocal (by omega)]
  · refine .inr (.inl ?_)
    rw [numberClass_of_ipv4Of hn, ipv4Class, if_neg (by omega), if_neg (by omega), if_pos hrange]
  · refine .inr (.inr (.inl ?_))
    rw [numberClass, if_neg (by omega), if_neg (by omega), if_neg (by omega),
      prefixClass_multicast (by omega)]
  · refine .inr (.inr (.inl ?_))
    rw [numberClass_of_ipv4Of hn, ipv4Class, if_neg (by omega), if_neg (by omega),
      if_neg (by omega), if_pos hrange]

theorem numberClass_of_loopback (h : isLoopbackValue v) : numberClass v = .loopback := by
  rcases h with rfl | ⟨n, hn, hrange⟩
  · rfl
  · rw [numberClass_of_ipv4Of hn, ipv4Class, if_pos hrange]

theorem targetAllowed_of_forbidden (hf : Forbidden v) (h : classifyIp s = numberClass v) :
    targetAllowed env s = true → isLoopbackValue v ∧ env.loopbackAllowed = true := by
  intro hallowed
  have hclass := of_decide_eq_true hallowed
  rw [h] at hclass
  rcases numberClass_of_forbidden hf with heq | heq | heq | ⟨heq, hloop⟩ <;> rw [heq] at hclass
  · simp at hclass
  · simp at hclass
  · simp at hclass
  · exact ⟨hloop, by simpa using hclass⟩

theorem classifyIp_of_forbidden (hv : addressValue s = some v) (hf : Forbidden v)
    (hr : KnownSpelling s v) : classifyIp s = numberClass v := by
  by_cases hspecial : Special v
  · exact classifyIp_of_knownSpelling hv hspecial hr
  · rw [classifyIp_of_not_special hv hspecial, if_neg, numberClass_of_not_special hspecial]
    intro hhead
    have h4 : ¬ isIPv4 s = true := fun h4 ↦ hspecial (.inr (.inr ⟨_, ipv4Of_of_isIPv4 h4 hv⟩))
    have hlt := first_lt_of_head (isIPv6_of_not_isIPv4 hv h4) hv hhead
    rcases hf with (h | ⟨n, hn, -⟩) | (h | ⟨n, hn, -⟩) | (h | ⟨n, hn, -⟩) | h | ⟨n, hn, -⟩
    · exact hspecial (.inr (.inl h))
    · exact hspecial (.inr (.inr ⟨n, hn⟩))
    · exact hspecial (.inl h)
    · exact hspecial (.inr (.inr ⟨n, hn⟩))
    · omega
    · exact hspecial (.inr (.inr ⟨n, hn⟩))
    · omega
    · exact hspecial (.inr (.inr ⟨n, hn⟩))

theorem special_of_not_knownSpelling (hr : ¬ KnownSpelling s v) : Special v := by
  by_contra hspecial
  exact hr ⟨fun h ↦ absurd (.inl h) hspecial, fun h ↦ absurd (.inr (.inl h)) hspecial,
    fun n hn ↦ absurd (.inr (.inr ⟨n, hn⟩)) hspecial⟩

theorem mem_of_resolveTarget {host : String} {target : Target}
    (h : resolveTarget env host = .ok target) (hmem : s ∈ target.ip :: target.addresses) :
    targetAllowed env s = true := by
  unfold resolveTarget at h
  split at h
  · cases h
  · split at h
    · cases h
    · cases h
    · rename_i ip others _
      split at h
      · cases h
      · rename_i hnone
        obtain rfl := Except.ok.inj h
        have hall := List.find?_eq_none.mp hnone
        have hs : s ∈ ip :: others := by
          rcases List.mem_cons.mp hmem with rfl | hmem
          · exact List.mem_cons_self
          · exact hmem
        simpa using hall s hs

theorem resolveTarget_literal (hv : addressValue s = some v) (h : targetAllowed env s = true) :
    resolveTarget env s = .ok ⟨s, s, [s]⟩ := by
  have hip : isIP s ≠ 0 := isSome_addressValue.mp (by rw [hv]; rfl)
  have hne : s ≠ "" := by
    rintro rfl
    exact hip rfl
  simp [resolveTarget, targetRecords, hne, hip, h]

/-- **What an address is taken for depends on its number only if its spelling does not mislead,
and an address that must not be connected to is kept out of all targets if and only if its
spelling is recognised and the flag for loopback targets does not let it in.** -/
theorem admitted_iff (env : Services) (s : String) (v : Nat) (hv : addressValue s = some v) :
    (ByNumber s ↔ ReadsRight s v) ∧
    ((∀ host target, resolveTarget env host = .ok target → s ∈ target.ip :: target.addresses →
        ¬ Forbidden v) ↔
      (Forbidden v → KnownSpelling s v ∧ ¬ (isLoopbackValue v ∧ env.loopbackAllowed = true))) := by
  refine ⟨byNumber_iff hv, ?_, ?_⟩
  · intro hkept hf
    have hrefused : ¬ targetAllowed env s = true := fun hallowed ↦
      hkept s _ (resolveTarget_literal hv hallowed) List.mem_cons_self hf
    have hr : KnownSpelling s v := by
      by_contra hr
      have hpublic := classifyIp_of_not_knownSpelling hv (special_of_not_knownSpelling hr) hr
      exact hrefused (decide_eq_true (.inr (.inl hpublic)))
    refine ⟨hr, fun ⟨hloop, hflag⟩ ↦ hrefused (decide_eq_true (.inl ⟨?_, hflag⟩))⟩
    rw [classifyIp_of_forbidden hv hf hr]
    exact numberClass_of_loopback hloop
  · intro hcond host target hok hmem hf
    obtain ⟨hr, hflag⟩ := hcond hf
    exact hflag (targetAllowed_of_forbidden hf (classifyIp_of_forbidden hv hf hr)
      (mem_of_resolveTarget hok hmem))

theorem metadata_admitted_iff :
    addressValue "::ffff:169.254.169.254%eth0" = some 0xffffa9fea9fe ∧
    ((ByNumber "::ffff:169.254.169.254%eth0" ↔
        ReadsRight "::ffff:169.254.169.254%eth0" 0xffffa9fea9fe) ∧
      ((∀ host target, resolveTarget offline host = .ok target →
          "::ffff:169.254.169.254%eth0" ∈ target.ip :: target.addresses →
            ¬ Forbidden 0xffffa9fea9fe) ↔
        (Forbidden 0xffffa9fea9fe → KnownSpelling "::ffff:169.254.169.254%eth0" 0xffffa9fea9fe ∧
          ¬ (isLoopbackValue 0xffffa9fea9fe ∧ offline.loopbackAllowed = true)))) :=
  ⟨by decide +kernel, admitted_iff _ _ _ (by decide +kernel)⟩

/-- The loopback address of IPv4, mapped into IPv6 and written in hexadecimal, is taken for a
public address and admitted. -/
theorem mapped_loopback_admitted : ¬ ByNumber "::ffff:7f00:1" ∧
    ¬ ∀ host target, resolveTarget offline host = .ok target →
      "::ffff:7f00:1" ∈ target.ip :: target.addresses →
        ∀ v ∈ addressValue "::ffff:7f00:1", ¬ Forbidden v := by
  have hv : addressValue "::ffff:7f00:1" = some 0xffff7f000001 := by decide +kernel
  have hloop : isLoopbackValue 0xffff7f000001 := .inr ⟨0x7f000001, by decide, by decide⟩
  have hpublic : classifyIp "::ffff:7f00:1" = .publicRange := by decide +kernel
  refine ⟨fun hby ↦ ?_, fun hkept ↦ ?_⟩
  · rw [byNumber_iff_eq hv, numberClass_of_loopback hloop, hpublic] at hby
    cases hby
  · have hallowed : targetAllowed offline "::ffff:7f00:1" = true :=
      decide_eq_true (.inr (.inl hpublic))
    exact hkept _ _ (resolveTarget_literal hv hallowed) List.mem_cons_self _ hv (.inl hloop)

end

end Shellius.QuickConnect
