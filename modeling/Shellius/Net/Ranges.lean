import Shellius.Net.Canonical

/-!
# Ranges of addresses

Where the value of an address lies: the special ranges of IPv6, and those of IPv4, to which
belongs what is mapped into IPv6.  A value does not know how it was written.
-/

namespace Shellius

/-- The IPv4 address that an address is, if it is one. -/
def ipv4Of (v : Nat) : Option Nat :=
  if v / 4294967296 = 65535 then some (v % 4294967296) else none

/-- `127.0.0.0/8` and `::1` -/
def isLoopbackValue (v : Nat) : Prop := v = 1 ∨ ∃ n ∈ ipv4Of v, n / 16777216 = 127

/-- `0.0.0.0/8` and `::` -/
def isUnspecifiedValue (v : Nat) : Prop := v = 0 ∨ ∃ n ∈ ipv4Of v, n / 16777216 = 0

/-- `169.254.0.0/16` and `fe80::/10` -/
def isLinkLocalValue (v : Nat) : Prop := v / 2 ^ 118 = 0x3fa ∨ ∃ n ∈ ipv4Of v, n / 65536 = 0xa9fe

/-- `224.0.0.0/4` and `ff00::/8` -/
def isMulticastValue (v : Nat) : Prop := v / 2 ^ 120 = 0xff ∨ ∃ n ∈ ipv4Of v, n / 268435456 = 14

/-- `fc00::/7` -/
def isUniqueLocalValue (v : Nat) : Prop := v / 2 ^ 121 = 0x7e

/-- `10.0.0.0/8`, `172.16.0.0/12` and `192.168.0.0/16` -/
def isPrivateValue (v : Nat) : Prop :=
  ∃ n ∈ ipv4Of v, n / 16777216 = 10 ∨ n / 1048576 = 0xac1 ∨ n / 65536 = 0xc0a8

section

variable {v n : Nat} {cs : List Char} {s : String} {gs : List Nat}

theorem ipv4Of_eq_some : ipv4Of v = some n ↔ v / 4294967296 = 65535 ∧ v % 4294967296 = n := by
  unfold ipv4Of
  split
  · rename_i h
    simp [h]
  · rename_i h
    simp [h]

/-- The number that groups stand for. -/
def groupsValue (gs : List Nat) : Nat := gs.foldl (fun n g ↦ 65536 * n + g) 0

theorem addressValue_of_isIPv4 (h : isIPv4 s = true) :
    addressValue s = some (0xffff00000000 + ipv4Value s.toList) := if_pos h

theorem addressValue_of_isIPv6 (h : isIPv6 s = true) :
    addressValue s = some (groupsValue (ipv6Groups (addressChars s))) := by
  rw [addressValue, if_neg (not_isIPv4_of_isIPv6 h), if_pos h]
  rfl

theorem ipv4Of_of_isIPv4 (h : isIPv4 s = true) (hv : addressValue s = some v) :
    ipv4Of v = some (ipv4Value s.toList) := by
  have hlt := ipv4Value_lt (show isIPv4Chars s.toList = true from h)
  rw [addressValue_of_isIPv4 h, Option.some.injEq] at hv
  rw [ipv4Of_eq_some]
  omega

theorem groupsValue_spec (hlen : gs.length = 8) (h : ∀ g ∈ gs, g < 65536) :
    ∃ a b c d e f high low, gs = [a, b, c, d, e, f, high, low] ∧
      a < 65536 ∧ b < 65536 ∧ c < 65536 ∧ d < 65536 ∧ e < 65536 ∧ f < 65536 ∧ high < 65536 ∧
      low < 65536 ∧ groupsValue gs = 2 ^ 112 * a + 2 ^ 96 * b + 2 ^ 80 * c + 2 ^ 64 * d +
        2 ^ 48 * e + 2 ^ 32 * f + 2 ^ 16 * high + low := by
  obtain ⟨a, gs, rfl⟩ := List.exists_cons_of_length_eq_add_one hlen
  obtain ⟨b, gs, rfl⟩ := List.exists_cons_of_length_eq_add_one (Nat.succ.inj hlen)
  obtain ⟨c, gs, rfl⟩ := List.exists_cons_of_length_eq_add_one (Nat.succ.inj (Nat.succ.inj hlen))
  obtain ⟨d, e, f, high, low, rfl⟩ : ∃ d e f high low, gs = [d, e, f, high, low] := by
    simp only [List.length_cons, Nat.reduceEqDiff] at hlen
    match gs, hlen with
    | [d, e, f, high, low], _ => exact ⟨d, e, f, high, low, rfl⟩
  simp only [List.forall_mem_cons] at h
  obtain ⟨ha, hb, hc, hd, he, hf, hh, hl, -⟩ := h
  refine ⟨a, b, c, d, e, f, high, low, rfl, ha, hb, hc, hd, he, hf, hh, hl, ?_⟩
  simp only [groupsValue, List.foldl_cons, List.foldl_nil]
  omega

theorem head_eq_div (hlen : gs.length = 8) (h : ∀ g ∈ gs, g < 65536) :
    gs.head? = some (groupsValue gs / 2 ^ 112) := by
  obtain ⟨a, b, c, d, e, f, high, low, rfl, ha, hb, hc, hd, he, hf, hh, hl, hv⟩ :=
    groupsValue_spec hlen h
  rw [hv, List.head?_cons, Option.some.injEq]
  omega

theorem groups_eq_of_lt (hlen : gs.length = 8) (h : ∀ g ∈ gs, g < 65536)
    (hlt : groupsValue gs < 2 ^ 48) : gs = [0, 0, 0, 0, 0, groupsValue gs / 4294967296,
      groupsValue gs % 4294967296 / 65536, groupsValue gs % 65536] := by
  obtain ⟨a, b, c, d, e, f, high, low, rfl, ha, hb, hc, hd, he, hf, hh, hl, hv⟩ :=
    groupsValue_spec hlen h
  rw [hv] at hlt ⊢
  obtain ⟨rfl, rfl, rfl, rfl, rfl⟩ : a = 0 ∧ b = 0 ∧ c = 0 ∧ d = 0 ∧ e = 0 := by omega
  simp only [List.cons.injEq, and_true, true_and]
  omega

end

end Shellius
