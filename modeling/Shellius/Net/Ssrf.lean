import Shellius.QuickConnect.Spellings

/-!
# The guard for outbound requests

`guardSsrf` before a request to a URL that an organization has given.  It looks at one address, the
literal one or the first that the resolver gives, and `isPrivateIp` tells by its text whether it is
private.  The request may be made to any address that the host has.

The parser of URLs and the resolver are not part of the service.  The parser leaves an IPv6 address
in its brackets, which `net.isIP` does not accept.
-/

namespace Shellius.Ssrf

open QuickConnect

/-- `isPrivateIp` of an IPv4 address. -/
def isPrivateIPv4 (cs : List Char) : Bool :=
  match (cs.splitOn '.').map decimalValue with
  | a :: b :: _ =>
    a = 10 ∨ (a = 172 ∧ 16 ≤ b ∧ b ≤ 31) ∨ (a = 192 ∧ b = 168) ∨ a = 127 ∨ (a = 169 ∧ b = 254)
  | _ => false

def isPrivateIp (ip : String) : Bool :=
  if isIPv4 ip then isPrivateIPv4 ip.toList
  else if isIPv6 ip then
    let normalized := ip.toList.map Char.toLower
    normalized = "::1".toList ∨ "fc".toList <+: normalized ∨ "fd".toList <+: normalized
  else false

/-- `new URL(rawUrl).hostname` and `dns.lookup`, of which the first address counts. -/
structure Runtime where
  hostname : String → Option String
  lookup : String → Option (String × List String)

def guardSsrf (env : Runtime) (rawUrl : String) (allowPrivate : Bool) : Except ApiError Unit :=
  match env.hostname rawUrl with
  | none => .error ⟨400, "Invalid URL", none⟩
  | some hostname =>
    if allowPrivate then .ok ()
    else if isIP hostname ≠ 0 then
      if isPrivateIp hostname then
        .error ⟨400, "SSRF guard: private IP addresses are not allowed", none⟩
      else .ok ()
    else
      match env.lookup hostname with
      | none =>
        .error ⟨400, "SSRF guard: could not resolve hostname '" ++ hostname ++ "'", none⟩
      | some (resolvedIp, _) =>
        if isPrivateIp resolvedIp then
          .error ⟨400, "SSRF guard: hostname resolves to a private IP address", none⟩
        else .ok ()

/-- What the client may connect to. -/
def addresses (env : Runtime) (hostname : String) : List String :=
  if isIP hostname ≠ 0 then [hostname]
  else if hostname.toList.head? = some '[' then [.ofList (hostname.toList.tail.dropLast)]
  else ((env.lookup hostname).map fun answers ↦ answers.1 :: answers.2).getD []

/-! ## Private ranges -/

def InPrivateRange (v : Nat) : Prop :=
  isLoopbackValue v ∨ isUnspecifiedValue v ∨ isLinkLocalValue v ∨ isUniqueLocalValue v ∨
    isPrivateValue v

def IsPrivate (address : String) : Prop := ∃ v ∈ addressValue address, InPrivateRange v

def IsTold (address : String) (v : Nat) : Prop :=
  (isIPv4 address = true ∧ ¬ isUnspecifiedValue v) ∨ address = "::1" ∨ isUniqueLocalValue v

section

variable {env : Runtime} {s : String} {v n : Nat} {cs : List Char}

theorem isPrivateIPv4_iff (h : isIPv4Chars cs = true) : isPrivateIPv4 cs = true ↔
    ipv4Value cs / 16777216 = 10 ∨ ipv4Value cs / 1048576 = 0xac1 ∨
      ipv4Value cs / 65536 = 0xc0a8 ∨ ipv4Value cs / 16777216 = 127 ∨
        ipv4Value cs / 65536 = 0xa9fe := by
  obtain ⟨a, b, c, d, hsplit, hoctet⟩ := isIPv4Chars_spec h
  have hle : ∀ o ∈ [a, b, c, d], decimalValue o ≤ 255 := fun o ho ↦
    (isOctet_spec (hoctet o ho)).2.2.2.2
  simp only [List.forall_mem_cons] at hle
  obtain ⟨ha, hb, hc, hd, -⟩ := hle
  rw [ipv4Value_eq hsplit, isPrivateIPv4, hsplit]
  simp only [List.map_cons, List.map_nil, decide_eq_true_eq]
  omega

theorem prefixClass_eq_privateRange : prefixClass cs = .privateRange ↔
    "fc".toList <+: cs ∨ "fd".toList <+: cs := by
  have hne : ∀ c : Char, c ≠ 'c' → c ≠ 'd' → ∀ p, 'f' :: c :: p <+: cs →
      ¬ ("fc".toList <+: cs ∨ "fd".toList <+: cs) := by
    rintro c hc hd p ⟨t, rfl⟩ (⟨u, hu⟩ | ⟨u, hu⟩)
    · exact hc (List.cons.inj (List.cons.inj hu).2).1.symm
    · exact hd (List.cons.inj (List.cons.inj hu).2).1.symm
  unfold prefixClass
  split
  · rename_i hlink
    simp only [List.any_cons, List.any_nil, Bool.or_false, Bool.or_eq_true,
      decide_eq_true_eq] at hlink
    refine iff_of_false nofun ?_
    rcases hlink with h | h | h | h <;> exact hne 'e' (by decide) (by decide) _ h
  · split
    · rename_i hmulti
      exact iff_of_false nofun (hne 'f' (by decide) (by decide) [] hmulti)
    · split
      · rename_i hprivate
        exact iff_of_true rfl hprivate
      · rename_i hpublic
        exact iff_of_false nofun hpublic

theorem prefixClass_uniqueLocal (h : n / 512 = 0x7e) :
    prefixClass (hexText n) = .privateRange := by
  have hall : ∀ k : Fin 512, prefixClass (hexText (0xfc00 + k)) = .privateRange := by
    decide +kernel
  obtain ⟨k, hk, rfl⟩ : ∃ k < 512, n = 0xfc00 + k := ⟨n - 0xfc00, by omega, by omega⟩
  exact hall ⟨k, hk⟩

theorem isPrivateIp_of_isIPv6 (h : isIPv6 s = true) (hv : addressValue s = some v) :
    isPrivateIp s = true ↔ s = "::1" ∨
      s.toList.head? ≠ some '0' ∧ prefixClass (hexText (v / 2 ^ 112)) = .privateRange := by
  rw [isPrivateIp, if_neg (not_isIPv4_of_isIPv6 h), if_pos h, decide_eq_true_eq,
    ← prefixClass_eq_privateRange, prefixClass_toLower h hv,
    map_toLower_eq_iff (by decide) (by decide), String.toList_inj]
  split
  · rename_i hzero
    simp [hzero]
  · rename_i hzero
    simp [hzero]

/-- Of the addresses in private ranges, which are told by their text. -/
theorem isPrivateIp_iff (hv : addressValue s = some v) (hp : InPrivateRange v) :
    isPrivateIp s = true ↔ IsTold s v := by
  by_cases h4 : isIPv4 s = true
  · have hn := ipv4Of_of_isIPv4 h4 hv
    have hdiv := (ipv4Of_eq_some.mp hn).1
    have hrange : ∀ P : Nat → Prop, (∃ n ∈ ipv4Of v, P n) ↔ P (ipv4Value s.toList) := fun P ↦ by
      simp [hn]
    have hname : s ≠ "::1" := by
      rintro rfl
      cases h4
    simp only [InPrivateRange, isLoopbackValue, isUnspecifiedValue, isLinkLocalValue,
      isUniqueLocalValue, isPrivateValue, hrange] at hp
    rw [isPrivateIp, if_pos h4, isPrivateIPv4_iff h4, IsTold, isUnspecifiedValue, hrange,
      isUniqueLocalValue]
    simp only [h4, hname, true_and, false_or]
    omega
  · have h6 : isIPv6 s = true := by
      by_contra h6
      rw [addressValue, if_neg h4, if_neg h6] at hv
      cases hv
    rw [isPrivateIp_of_isIPv6 h6 hv, IsTold]
    simp only [h4, Bool.false_eq_true, false_and, false_or]
    refine or_congr_right ⟨?_, fun hlocal ↦ ⟨fun hhead ↦ ?_, ?_⟩⟩
    · rintro ⟨hhead, hclass⟩
      -- the first group is zero, or that of a link-local address
      have hzero : v / 2 ^ 112 ≠ 0 := fun hzero ↦ by
        rw [hzero, prefixClass_of_head (by decide)] at hclass
        cases hclass
      have hlink : ¬ v / 2 ^ 118 = 0x3fa := fun hlink ↦ by
        rw [prefixClass_linkLocal (by omega)] at hclass
        cases hclass
      have hmapped : ¬ ∃ n, ipv4Of v = some n := by
        rintro ⟨n, hn⟩
        have hdiv := (ipv4Of_eq_some.mp hn).1
        omega
      rcases hp with (h | ⟨n, hn, -⟩) | (h | ⟨n, hn, -⟩) | (h | ⟨n, hn, -⟩) | h | ⟨n, hn, -⟩
      · omega
      · exact absurd ⟨n, hn⟩ hmapped
      · omega
      · exact absurd ⟨n, hn⟩ hmapped
      · exact absurd h hlink
      · exact absurd ⟨n, hn⟩ hmapped
      · exact h
      · exact absurd ⟨n, hn⟩ hmapped
    · have hlt := first_lt_of_head h6 hv hhead
      unfold isUniqueLocalValue at hlocal
      omega
    · unfold isUniqueLocalValue at hlocal
      exact prefixClass_uniqueLocal (by omega)

/-! ## Soundness -/

/-- The guard lets no request to a private address pass. -/
def Sound (env : Runtime) (rawUrl : String) (allowPrivate : Bool) : Prop :=
  guardSsrf env rawUrl allowPrivate = .ok () → ∀ hostname ∈ env.hostname rawUrl,
    ∀ a ∈ addresses env hostname, ¬ IsPrivate a

/-- The address that the guard looks at, if it finds one. -/
def lookedAt (env : Runtime) (hostname : String) : Option String :=
  if isIP hostname ≠ 0 then some hostname else (env.lookup hostname).map Prod.fst

theorem guardSsrf_eq_ok {rawUrl : String} {allowPrivate : Bool} :
    guardSsrf env rawUrl allowPrivate = .ok () ↔ ∃ hostname, env.hostname rawUrl = some hostname ∧
      (allowPrivate = true ∨ ∃ a, lookedAt env hostname = some a ∧ isPrivateIp a = false) := by
  unfold guardSsrf lookedAt
  split
  · rename_i hnone
    simp [hnone]
  · rename_i hostname hsome
    simp only [hsome, Option.some.injEq, exists_eq_left']
    split
    · rename_i hallow
      simp [hallow]
    · rename_i hallow
      simp only [hallow, Bool.false_eq_true, false_or]
      split
      · cases hprivate : isPrivateIp hostname <;> simp [hprivate]
      · cases hlookup : env.lookup hostname with
        | none => simp
        | some answers => cases hprivate : isPrivateIp answers.1 <;> simp [hprivate]

/-- **The guard is sound for a URL if and only if no address of its host is private, or the guard is
not told to let private addresses pass and the one that it looks at, if there is one, is told by its
text.**  Those that are told are `::1`, the unique local addresses and, of those written as IPv4
addresses, all but `0.0.0.0/8`. -/
theorem guardSsrf_sound_iff (env : Runtime) (rawUrl : String) (allowPrivate : Bool) :
    (Sound env rawUrl allowPrivate ↔ ∀ hostname ∈ env.hostname rawUrl,
      (∀ a ∈ addresses env hostname, ¬ IsPrivate a) ∨
        allowPrivate = false ∧ ∀ a ∈ lookedAt env hostname, isPrivateIp a = true) ∧
    ∀ s, ∀ v ∈ addressValue s, InPrivateRange v → (isPrivateIp s = true ↔ IsTold s v) := by
  refine ⟨⟨fun hsound hostname hhost ↦ ?_, fun hcond hok hostname hhost ↦ ?_⟩,
    fun s v hv hp ↦ isPrivateIp_iff hv hp⟩
  · by_cases hok : guardSsrf env rawUrl allowPrivate = .ok ()
    · exact .inl (hsound hok hostname hhost)
    · refine .inr ⟨?_, fun a ha ↦ ?_⟩
      · by_contra hallow
        rw [Bool.not_eq_false] at hallow
        exact hok (guardSsrf_eq_ok.mpr ⟨hostname, hhost, .inl hallow⟩)
      · by_contra hprivate
        rw [Bool.not_eq_true] at hprivate
        exact hok (guardSsrf_eq_ok.mpr ⟨hostname, hhost, .inr ⟨a, ha, hprivate⟩⟩)
  · refine (hcond hostname hhost).resolve_right fun ⟨hallow, htold⟩ ↦ ?_
    obtain ⟨hostname', hhost', hpass⟩ := guardSsrf_eq_ok.mp hok
    obtain rfl := Option.some.inj (Option.mem_def.mp hhost ▸ hhost')
    rcases hpass with hpass | ⟨a, ha, hpublic⟩
    · rw [hallow] at hpass
      cases hpass
    · rw [htold a ha] at hpublic
      cases hpublic

end

/-! ### A second address -/

def rebinding : Runtime where
  hostname _ := some "rebind.example"
  lookup host := if host = "rebind.example" then some ("93.184.216.34", ["169.254.169.254"]) else none

theorem metadata_reached : ¬ ∀ rawUrl, Sound rebinding rawUrl false := by
  intro hsound
  refine hsound "https://rebind.example/" (by decide +kernel) "rebind.example" rfl "169.254.169.254"
    (by decide +kernel) ⟨0xffffa9fea9fe, by decide +kernel, .inr (.inr (.inl (.inr ?_)))⟩
  exact ⟨0xa9fea9fe, by decide, by decide⟩

end Shellius.Ssrf
