import Mathlib.Data.String.Basic

/-!
# Addresses

What the services use of Node's `net` module: which texts `net.isIP` takes for an
address.  One address has many texts; `addressValue` is the number they all stand for.
-/

namespace Shellius

def isDecimal (c : Char) : Bool := '0' ≤ c ∧ c ≤ '9'

/-- A hexadecimal digit, in either case. -/
def isHexadecimal (c : Char) : Bool := isDecimal c ∨ ('a' ≤ c ∧ c ≤ 'f') ∨ ('A' ≤ c ∧ c ≤ 'F')

/-- The number that decimal digits stand for. -/
def decimalValue (ds : List Char) : Nat := ds.foldl (fun n c ↦ 10 * n + (c.toNat - '0'.toNat)) 0

/-- `parseInt(s, 10)`, of a text without blanks before it; `none` is `NaN`. -/
def parseInt (s : List Char) : Option Int :=
  let (sign, rest) : Int × List Char :=
    match s with
    | '-' :: cs => (-1, cs)
    | '+' :: cs => (1, cs)
    | cs => (1, cs)
  let digits := rest.takeWhile isDecimal
  if digits = [] then none else some (sign * decimalValue digits)

/-- A number from 0 to 255, without leading zeros. -/
def isOctet (ds : List Char) : Bool :=
  ds ≠ [] ∧ ds.length ≤ 3 ∧ ds.all isDecimal ∧ (ds.head? = some '0' → ds.length = 1) ∧
    decimalValue ds ≤ 255

/-- Four octets. -/
def isIPv4Chars (cs : List Char) : Bool :=
  (cs.splitOn '.').length = 4 ∧ (cs.splitOn '.').all isOctet

/-- One to four hexadecimal digits. -/
def isGroup (cs : List Char) : Bool := cs ≠ [] ∧ cs.length ≤ 4 ∧ cs.all isHexadecimal

/-- How many groups of sixteen bits a side of `::` has, if it is well formed; only at
the end of an address may the last two be written as an IPv4 address. -/
def groupCount (atEnd : Bool) (side : List Char) : Option Nat :=
  if side = [] then some 0
  else
    let parts := side.splitOn ':'
    if parts.all isGroup then some parts.length
    else if atEnd ∧ parts.dropLast.all isGroup ∧ isIPv4Chars (parts.getLast?.getD []) then
      some (parts.length + 1)
    else none

/-- The two sides of the first `::`, if there is one. -/
def splitGap : List Char → Option (List Char × List Char)
  | ':' :: ':' :: rest => some ([], rest)
  | c :: rest => (splitGap rest).map fun sides ↦ (c :: sides.1, sides.2)
  | [] => none

/-- Eight groups, or fewer with `::` for at least one. -/
def isIPv6Chars (cs : List Char) : Bool :=
  match splitGap cs with
  | none => groupCount true cs = some 8
  | some (left, right) =>
    match groupCount false left, groupCount true right with
    | some m, some n => m + n ≤ 7
    | _, _ => false

/-- The name of a zone, after `%`. -/
def isZone (cs : List Char) : Bool :=
  cs ≠ [] ∧ cs.all fun c ↦
    isDecimal c ∨ ('a' ≤ c ∧ c ≤ 'z') ∨ ('A' ≤ c ∧ c ≤ 'Z') ∨ c = '-' ∨ c = '.' ∨ c = ':'

def isIPv4 (s : String) : Bool := isIPv4Chars s.toList

def isIPv6 (s : String) : Bool :=
  match s.toList.splitOn '%' with
  | [address] => isIPv6Chars address
  | [address, zone] => isIPv6Chars address ∧ isZone zone
  | _ => false

def isIP (s : String) : Nat := if isIPv4 s then 4 else if isIPv6 s then 6 else 0

example : ["10.0.0.1", "256.0.0.1", "01.2.3.4", "::1", "1:2:3:4:5:6:7::", "fe80::1%eth0",
    "::ffff:10.0.0.1", "1:2:3:4:5:6:7:8:9", ""].map isIP = [4, 0, 0, 6, 6, 6, 6, 0, 0] := by
  decide

/-! ## Their values -/

def hexadecimalDigit (c : Char) : Nat :=
  if isDecimal c then c.toNat - '0'.toNat else c.toLower.toNat - 'a'.toNat + 10

/-- The number that hexadecimal digits stand for. -/
def hexadecimalValue (ds : List Char) : Nat :=
  ds.foldl (fun n c ↦ 16 * n + hexadecimalDigit c) 0

/-- Four octets as one number. -/
def ipv4Value (cs : List Char) : Nat :=
  (cs.splitOn '.').foldl (fun n octet ↦ 256 * n + decimalValue octet) 0

/-- The groups of a side of `::`, those of an IPv4 address at its end included. -/
def sideGroups (side : List Char) : List Nat :=
  if side = [] then []
  else
    let parts := side.splitOn ':'
    let final := parts.getLast?.getD []
    if isIPv4Chars final then
      parts.dropLast.map hexadecimalValue ++ [ipv4Value final / 65536, ipv4Value final % 65536]
    else parts.map hexadecimalValue

def ipv6Groups (cs : List Char) : List Nat :=
  match splitGap cs with
  | none => sideGroups cs
  | some (left, right) =>
    let l := sideGroups left
    let r := sideGroups right
    l ++ List.replicate (8 - l.length - r.length) 0 ++ r

/-- The 128 bits of an address.  An IPv4 address is the IPv6 address it is mapped to, and the
zone of an address is no part of its value. -/
def addressValue (s : String) : Option Nat :=
  if isIPv4 s then some (0xffff00000000 + ipv4Value s.toList)
  else if isIPv6 s then
    some ((ipv6Groups ((s.toList.splitOn '%').headD [])).foldl (fun n g ↦ 65536 * n + g) 0)
  else none

/-- Just the texts that `net.isIP` accepts have a value. -/
theorem isSome_addressValue {s : String} : (addressValue s).isSome ↔ isIP s ≠ 0 := by
  unfold addressValue isIP
  split
  · simp
  · split <;> simp

/-- Two texts of one address. -/
def SameAddress (a b : String) : Prop := ∃ v, addressValue a = some v ∧ addressValue b = some v

instance (a b : String) : Decidable (SameAddress a b) :=
  decidable_of_iff ((addressValue a).isSome ∧ addressValue a = addressValue b) <| by
    simp only [SameAddress, Option.isSome_iff_exists]
    constructor
    · rintro ⟨⟨v, hv⟩, h⟩
      exact ⟨v, hv, h ▸ hv⟩
    · rintro ⟨v, ha, hb⟩
      exact ⟨⟨v, ha⟩, ha.trans hb.symm⟩

example : ["10.0.0.1", "::ffff:10.0.0.1", "::FFFF:a00:1", "0:0:0:0:0:ffff:0a00:0001"].map
    addressValue = List.replicate 4 (some 0xffff0a000001) := by
  decide +kernel

end Shellius
