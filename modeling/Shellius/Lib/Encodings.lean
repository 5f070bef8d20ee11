import Mathlib.Data.List.TakeWhile
import Shellius.Lib.Aead

/-!
# Bytes as text

The encodings of a `Buffer` in JavaScript.  Encoding is the usual one; decoding is lenient.
Characters that have no meaning in base64 are skipped, `-` and `_` are taken for `+` and `/`,
decoding ends at the first `=`, and the bits that are left over are dropped.  Decoding
hexadecimal digits ends at the first pair that is none.  What has been encoded is decoded.
-/

namespace Shellius.Lib

/-! ## Base64 -/

namespace Base64

/-- The 64 digits. -/
def alphabet : List Char :=
  "ABCDEFGHIJKLMNOPQRSTUVWXYZabcdefghijklmnopqrstuvwxyz0123456789+/".toList

def digit (n : Nat) : Char := alphabet.getD n '='

/-- The value of a digit; two of them have another form. -/
def value (c : Char) : Option Nat :=
  if c = '-' then some 62
  else if c = '_' then some 63
  else if c ∈ alphabet then some (alphabet.idxOf c)
  else none

/-- Three bytes make four digits. -/
def encode : Bytes → List Char
  | [] => []
  | [a] => [digit (a.toNat / 4), digit (a.toNat % 4 * 16), '=', '=']
  | [a, b] =>
    [digit (a.toNat / 4), digit (a.toNat % 4 * 16 + b.toNat / 16), digit (b.toNat % 16 * 4), '=']
  | a :: b :: c :: rest =>
    digit (a.toNat / 4) :: digit (a.toNat % 4 * 16 + b.toNat / 16) ::
      digit (b.toNat % 16 * 4 + c.toNat / 64) :: digit (c.toNat % 64) :: encode rest

/-- The bytes of some digits. -/
def ofValues : List Nat → Bytes
  | p :: q :: r :: s :: rest =>
    .ofNat (p * 4 + q / 16) :: .ofNat (q % 16 * 16 + r / 4) :: .ofNat (r % 4 * 64 + s) ::
      ofValues rest
  | [p, q, r] => [.ofNat (p * 4 + q / 16), .ofNat (q % 16 * 16 + r / 4)]
  | [p, q] => [.ofNat (p * 4 + q / 16)]
  | _ => []

def decode (s : List Char) : Bytes := ofValues ((s.takeWhile (· ≠ '=')).filterMap value)

theorem value_digit : ∀ n, n < 64 → value (digit n) = some n := by decide +kernel

theorem digit_ne {c : Char} (hc : value c = none) (n : Nat) (h : n < 64) : digit n ≠ c := by
  intro he
  rw [← he, value_digit n h] at hc
  cases hc

theorem digit_ne_pad : ∀ n, n < 64 → digit n ≠ '=' := digit_ne (by decide)

theorem values_digit {n : Nat} (h : n < 64) (s : List Char) :
    ((digit n :: s).takeWhile (· ≠ '=')).filterMap value =
      n :: (s.takeWhile (· ≠ '=')).filterMap value := by
  rw [List.takeWhile_cons_of_pos (by simpa using digit_ne_pad n h), List.filterMap_cons,
    value_digit n h]

theorem values_pad (s : List Char) : (('=' :: s).takeWhile (· ≠ '=')).filterMap value = [] := by
  rw [List.takeWhile_cons_of_neg (by simp)]
  rfl

theorem decode_encode (b : Bytes) : decode (encode b) = b := by
  unfold decode
  fun_induction encode b with
  | case1 => rfl
  | case2 a =>
    have ha := a.toNat_lt
    rw [values_digit (by omega), values_digit (by omega), values_pad, ofValues,
      show a.toNat / 4 * 4 + a.toNat % 4 * 16 / 16 = a.toNat by omega, UInt8.ofNat_toNat]
  | case3 a b =>
    have ha := a.toNat_lt
    have hb := b.toNat_lt
    rw [values_digit (by omega), values_digit (by omega), values_digit (by omega), values_pad,
      ofValues, show a.toNat / 4 * 4 + (a.toNat % 4 * 16 + b.toNat / 16) / 16 = a.toNat by omega,
      show (a.toNat % 4 * 16 + b.toNat / 16) % 16 * 16 + b.toNat % 16 * 4 / 4 = b.toNat by omega,
      UInt8.ofNat_toNat, UInt8.ofNat_toNat]
  | case4 a b c rest ih =>
    have ha := a.toNat_lt
    have hb := b.toNat_lt
    have hc := c.toNat_lt
    rw [values_digit (by omega), values_digit (by omega), values_digit (by omega),
      values_digit (by omega), ofValues, ih,
      show a.toNat / 4 * 4 + (a.toNat % 4 * 16 + b.toNat / 16) / 16 = a.toNat by omega,
      show (a.toNat % 4 * 16 + b.toNat / 16) % 16 * 16 + (b.toNat % 16 * 4 + c.toNat / 64) / 4 =
        b.toNat by omega,
      show (b.toNat % 16 * 4 + c.toNat / 64) % 4 * 64 + c.toNat % 64 = c.toNat by omega,
      UInt8.ofNat_toNat, UInt8.ofNat_toNat, UInt8.ofNat_toNat]

theorem length_encode_le (b : Bytes) : (encode b).length ≤ 2 * b.length + 2 := by
  fun_induction encode b with
  | case1 => decide
  | case2 a => exact Nat.le_refl 4
  | case3 a b => exact Nat.le_add_right 4 2
  | case4 a b c rest ih =>
    simp only [List.length_cons]
    omega

theorem digit_ne_colon : ∀ n, n < 64 → digit n ≠ ':' := digit_ne (by decide)

theorem colon_notMem_encode (b : Bytes) : ':' ∉ encode b := by
  have hdigit : ∀ {n : Nat}, n < 64 → ':' ≠ digit n := fun h he ↦ digit_ne_colon _ h he.symm
  fun_induction encode b with
  | case1 => exact List.not_mem_nil
  | case2 a =>
    have ha := a.toNat_lt
    simp only [List.mem_cons, List.not_mem_nil, or_false, not_or]
    exact ⟨hdigit (by omega), hdigit (by omega), by decide, by decide⟩
  | case3 a b =>
    have ha := a.toNat_lt
    have hb := b.toNat_lt
    simp only [List.mem_cons, List.not_mem_nil, or_false, not_or]
    exact ⟨hdigit (by omega), hdigit (by omega), hdigit (by omega), by decide⟩
  | case4 a b c rest ih =>
    have ha := a.toNat_lt
    have hb := b.toNat_lt
    have hc := c.toNat_lt
    simp only [List.mem_cons, not_or]
    exact ⟨hdigit (by omega), hdigit (by omega), hdigit (by omega), hdigit (by omega), ih⟩

end Base64

/-! ## Hexadecimal digits -/

namespace Hex

def digit (n : Nat) : Char := "0123456789abcdef".toList.getD n '0'

def value (c : Char) : Option Nat :=
  if '0' ≤ c ∧ c ≤ '9' then some (c.toNat - '0'.toNat)
  else if 'a' ≤ c ∧ c ≤ 'f' then some (c.toNat - 'a'.toNat + 10)
  else if 'A' ≤ c ∧ c ≤ 'F' then some (c.toNat - 'A'.toNat + 10)
  else none

/-- Every byte makes two digits. -/
def encode (b : Bytes) : List Char := b.flatMap fun x ↦ [digit (x.toNat / 16), digit (x.toNat % 16)]

def decode : List Char → Bytes
  | c :: d :: rest =>
    match value c, value d with
    | some p, some q => .ofNat (p * 16 + q) :: decode rest
    | _, _ => []
  | _ => []

theorem value_digit : ∀ n, n < 16 → value (digit n) = some n := by decide

theorem decode_encode (b : Bytes) : decode (encode b) = b := by
  induction b with
  | nil => rfl
  | cons x b ih =>
    have hx := x.toNat_lt
    have hp := value_digit (x.toNat / 16) (by omega)
    have hq := value_digit (x.toNat % 16) (by omega)
    show decode (digit (x.toNat / 16) :: digit (x.toNat % 16) :: encode b) = x :: b
    rw [decode, hp, hq]
    dsimp only
    rw [ih, show x.toNat / 16 * 16 + x.toNat % 16 = x.toNat by omega, UInt8.ofNat_toNat]

theorem length_encode (b : Bytes) : (encode b).length = 2 * b.length := by
  induction b with
  | nil => rfl
  | cons x b ih =>
    rw [encode, List.flatMap_cons, List.length_append, List.length_cons]
    rw [encode] at ih
    simp [ih]
    omega

theorem digit_ne_colon : ∀ n, n < 16 → digit n ≠ ':' := by decide

theorem colon_notMem_encode (b : Bytes) : ':' ∉ encode b := by
  intro h
  obtain ⟨x, -, hx⟩ := List.mem_flatMap.mp h
  have hlt := x.toNat_lt
  rw [List.mem_cons, List.mem_singleton] at hx
  obtain he | he := hx
  · exact digit_ne_colon _ (by omega) he.symm
  · exact digit_ne_colon _ (by omega) he.symm

end Hex

/-! ## UTF-8 -/

/-- `Buffer.from(s, 'utf8')` -/
def utf8 (s : String) : Bytes := s.toUTF8.data.toList

/-- `buffer.toString('utf8')`, with what the decoder makes of bytes that are no UTF-8. -/
def utf8Text (lossy : Bytes → String) (b : Bytes) : String :=
  (String.fromUTF8? ⟨b.toArray⟩).getD (lossy b)

theorem length_utf8_le (l : List Char) : (utf8 (.ofList l)).length ≤ 4 * l.length := by
  have hbytes : utf8 (.ofList l) = l.flatMap String.utf8EncodeChar := by
    show (String.ofList l).toByteArray.data.toList = _
    rw [String.toByteArray_ofList, List.utf8Encode]
    simp
  rw [hbytes]
  clear hbytes
  induction l with
  | nil => exact Nat.le_refl 0
  | cons c l ih =>
    have hc := c.utf8Size_le_four
    rw [List.flatMap_cons, List.length_append, String.length_utf8EncodeChar, List.length_cons]
    omega

theorem utf8Text_utf8 (lossy : Bytes → String) (s : String) : utf8Text lossy (utf8 s) = s := by
  have hbytes : (⟨(utf8 s).toArray⟩ : ByteArray) = s.toByteArray := by
    unfold utf8
    rw [Array.toArray_toList]
    rfl
  unfold utf8Text String.fromUTF8?
  rw [hbytes, dif_pos s.isValidUTF8]
  rfl

end Shellius.Lib
