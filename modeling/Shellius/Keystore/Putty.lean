import Mathlib.Algebra.Group.Int.Defs
import Mathlib.Data.List.SplitOn
import Shellius.Lib.Checks
import Shellius.Lib.Encodings
import Shellius.Net
import Shellius.Schema
import Shellius.Text

/-!
# Key files of PuTTY

`readPuttyKey` of `sshKeys.js` reads a `.ppk` file of format 2 or 3 and decrypts it.  An encrypted
file ends with a MAC over its headers and its decrypted private blob.

The reader takes headers in order and does not look at their names, and it checks the MAC if it has
read one.  So an encrypted file without the last line, or with nothing after its colon, is read
without any check (`readPuttyKey_authenticated`).

Hashes, the cipher and the buffers of `sshpk` are parameters.
-/

namespace Shellius.Keystore.Putty

open Lib

/-! ## What the reader uses -/

/-- The parameters of a derivation by Argon2; a number that is none is `NaN`. -/
structure Kdf where
  type : String
  memory : Option Int
  passes : Option Int
  parallelism : Option Int
  salt : Bytes

structure Part where
  name : String
  data : Bytes

/-- What the reader relies on. -/
structure Primitives where
  sha1 : Bytes → Bytes
  /-- `createHmac`, by the version of the format. -/
  hmac : Nat → Bytes → Bytes → Bytes
  hmac_ne_nil : ∀ version key data, hmac version key data ≠ []
  /-- The eighty bytes that Argon2 makes of a passphrase. -/
  argon2 : Kdf → Bytes → Except ApiError Bytes
  /-- `aes-256-cbc` without padding, or the message of its error. -/
  decipher : Bytes → Bytes → Bytes → Except String Bytes
  /-- `SSHBuffer.readBuffer` -/
  readBuffer : Bytes → Except ApiError (Bytes × Bytes)
  /-- `rfc4253.read` -/
  readPublic : Bytes → Except ApiError (String × List Part)
  /-- `new sshpk.PrivateKey` -/
  checkKey : String → List Part → Except ApiError Unit
  toLowerCase : String → String

/-! ## Lines -/

/-- The three ways to end a line are one. -/
def newlines : List Char → List Char
  | '\r' :: '\n' :: cs => '\n' :: newlines cs
  | '\r' :: cs => '\n' :: newlines cs
  | c :: cs => c :: newlines cs
  | [] => []

def linesOf (text : String) : List (List Char) := (newlines text.toList).splitOn '\n'

def isBlank (line : List Char) : Bool := trim (.ofList line) = ""

structure Header where
  key : String
  val : String
deriving DecidableEq

def unsupported (message : String) : ApiError := ⟨400, message, some "KEY_UNSUPPORTED_FORMAT"⟩

/-- `readHeader`, with the lines that are left. -/
def readHeader (expected : String) (lines : List (List Char)) :
    Except ApiError (Header × List (List Char)) :=
  match lines.dropWhile isBlank with
  | line :: rest =>
    if ':' ∈ line then
      .ok (⟨trim (.ofList (line.takeWhile (· ≠ ':'))),
        trim (.ofList ((line.dropWhile (· ≠ ':')).drop 1))⟩, rest)
    else .error (unsupported ("Malformed PuTTY key file (expected \"" ++ expected ++ "\")"))
  | [] => .error (unsupported ("Malformed PuTTY key file (expected \"" ++ expected ++ "\")"))

/-- `Number.isFinite`, of a number that is rounded to a double. -/
def isFinite (n : Int) : Bool := n < 2 ^ 1024 - 2 ^ 970

/-- The lines that a header counts, as a blob, and the lines that are left. -/
def readBlob (what : String) (lines : List (List Char)) :
    Except ApiError (Bytes × List (List Char)) := do
  let (header, lines) ← readHeader what lines
  let n ← demand ((parseInt header.val.toList).filter fun n ↦ isFinite n ∧ 0 ≤ n)
    (unsupported ("Malformed PuTTY key file (" ++ what ++ ")"))
  pure (Base64.decode (lines.take n.toNat).flatten, lines.drop n.toNat)

/-! ## Files -/

structure File where
  version : Nat
  algo : String
  encryption : String
  comment : String
  publicBlob : Bytes
  kdf : Option Kdf
  privateBlob : Bytes
  /-- The header after the private blob, if there is one. -/
  mac : Option Header

def versionOf (key : String) : Option Nat :=
  let name := "putty-user-key-file-".toList
  let digits := key.toList.drop name.length
  if (key.toList.take name.length).map Char.toLower = name ∧ digits ≠ [] ∧ digits.all isDecimal then
    some (decimalValue digits)
  else none

variable (P : Primitives)

/-- The headers of a derivation. -/
def readKdf (lines : List (List Char)) : Except ApiError (Kdf × List (List Char)) := do
  let (type, lines) ← readHeader "Key-Derivation" lines
  let (memory, lines) ← readHeader "Argon2-Memory" lines
  let (passes, lines) ← readHeader "Argon2-Passes" lines
  let (parallelism, lines) ← readHeader "Argon2-Parallelism" lines
  let (salt, lines) ← readHeader "Argon2-Salt" lines
  pure ({
    type := P.toLowerCase type.val
    memory := parseInt memory.val.toList
    passes := parseInt passes.val.toList
    parallelism := parseInt parallelism.val.toList
    salt := Hex.decode salt.val.toList }, lines)

/-- The headers of the derivation, where a file has them. -/
def readKdfOf (version : Nat) (encryption : String) (lines : List (List Char)) :
    Except ApiError (Option Kdf × List (List Char)) :=
  if version = 3 ∧ encryption ≠ "none" then
    (readKdf P lines).map fun r ↦ (some r.1, r.2)
  else .ok (none, lines)

/-- The header after the private blob, if there is a line with a colon. -/
def readMac (lines : List (List Char)) : Except ApiError (Option Header) :=
  match lines.dropWhile isBlank with
  | line :: _ =>
    if ':' ∈ line then (readHeader "Private-MAC" lines).map fun r ↦ some r.1 else .ok none
  | [] => .ok none

/-- What `readPuttyKey` reads before it decrypts anything. -/
def readFile (text : String) : Except ApiError File := do
  let (first, lines) ← readHeader "PuTTY-User-Key-File" (linesOf text)
  let version ← demand (versionOf first.key) (unsupported "Not a PuTTY private key file")
  require (version = 2 ∨ version = 3)
    (unsupported ("Unsupported PuTTY key file version " ++ toString version))
  let (encryption, lines) ← readHeader "Encryption" lines
  let (comment, lines) ← readHeader "Comment" lines
  let (publicBlob, lines) ← readBlob "Public-Lines" lines
  require (first.val ≠ "ssh-dss")
    ⟨400, "DSA keys are not supported (deprecated)", some "KEY_UNSUPPORTED_TYPE"⟩
  let (kdf, lines) ← readKdfOf P version encryption.val lines
  let (privateBlob, lines) ← readBlob "Private-Lines" lines
  let mac ← readMac lines
  pure {
    version
    algo := first.val
    encryption := encryption.val
    comment := comment.val
    publicBlob, kdf, privateBlob, mac }

/-! ## Keys -/

def sshWireString (b : Bytes) : Bytes :=
  [.ofNat (b.length / 16777216), .ofNat (b.length / 65536), .ofNat (b.length / 256),
    .ofNat b.length] ++ b

def File.macData (f : File) (privateBlob : Bytes) : Bytes :=
  sshWireString (utf8 f.algo) ++ sshWireString (utf8 f.encryption) ++
    sshWireString (utf8 f.comment) ++ sshWireString f.publicBlob ++ sshWireString privateBlob

structure Keys where
  cipherKey : Bytes
  iv : Bytes
  macKey : Bytes

def keysOfHash (passphrase : Bytes) : Keys where
  cipherKey := (P.sha1 ([0, 0, 0, 0] ++ passphrase) ++ P.sha1 ([0, 0, 0, 1] ++ passphrase)).take 32
  iv := List.replicate 16 0
  macKey := P.sha1 (utf8 "putty-private-key-file-mac-key" ++ passphrase)

def keysOfKdf (kdf : Kdf) (passphrase : Bytes) : Except ApiError Keys := do
  require (kdf.type ∈ ["argon2id", "argon2i", "argon2d"])
    (unsupported ("Unsupported PuTTY Key-Derivation \"" ++ kdf.type ++ "\""))
  let out ← P.argon2 kdf passphrase
  pure { cipherKey := out.take 32, iv := (out.drop 32).take 16, macKey := (out.drop 48).take 32 }

def File.keys (f : File) (passphrase : String) : Except ApiError Keys :=
  match f.kdf with
  | some kdf => keysOfKdf P kdf (utf8 passphrase)
  | none => .ok (keysOfHash P (utf8 passphrase))

/-- `timingSafeEqualHex`, of the digits of some bytes. -/
def timingSafeEqualHex (a : Bytes) (b : String) : Bool :=
  (Hex.decode b.toList).length = a.length ∧ a.length ≠ 0 ∧ Hex.decode b.toList = a

def File.computedMac (f : File) (keys : Keys) (privateBlob : Bytes) : Bytes :=
  P.hmac f.version keys.macKey (f.macData privateBlob)

def isEcdsa (algo : String) : Bool := "ecdsa-sha2-nistp".toList <+: algo.toList

/-- The parts of a private blob with some names, one after the other. -/
def readParts : List String → Bytes → Except ApiError (List Part)
  | [], _ => .ok []
  | name :: names, b => do
      let (data, b) ← P.readBuffer b
      let parts ← readParts names b
      pure (⟨name, data⟩ :: parts)

def readPuttyPrivateParts (algo : String) (b : Bytes) : Except ApiError (List Part) :=
  if algo = "ssh-rsa" then readParts P ["d", "p", "q", "iqmp"] b
  else if isEcdsa algo then readParts P ["d"] b
  else if algo = "ssh-ed25519" then readParts P ["k"] b
  else .error (unsupported ("Unsupported PuTTY key type: " ++ algo))

structure PrivateKey where
  type : String
  parts : List Part
  comment : String
  encrypted : Bool
  formatVersion : Nat

def File.key (f : File) (privateBlob : Bytes) (encrypted : Bool) : Except ApiError PrivateKey := do
  let pub ← P.readPublic f.publicBlob
  let privateParts ← readPuttyPrivateParts P f.algo privateBlob
  P.checkKey pub.1 (pub.2 ++ privateParts)
  pure {
    type := pub.1
    parts := pub.2 ++ privateParts
    comment := f.comment
    encrypted
    formatVersion := f.version }

/-- The private blob of an encrypted file. -/
def File.decrypt (f : File) (keys : Keys) : Except ApiError Bytes :=
  match P.decipher keys.cipherKey keys.iv f.privateBlob with
  | .ok b => .ok b
  | .error message =>
    .error ⟨400, "Failed to decrypt PuTTY key: " ++ message, some "KEY_PASSPHRASE_INVALID"⟩

def File.checkMac (f : File) (keys : Keys) (privateBlob : Bytes) : Except ApiError Unit :=
  match truthy (f.mac.map Header.val) with
  | some macValue =>
    require (timingSafeEqualHex (f.computedMac P keys privateBlob) macValue)
      ⟨400, "Incorrect passphrase for this private key.", some "KEY_PASSPHRASE_INVALID"⟩
  | none => .ok ()

def readPuttyKey (text : String) (passphrase : Option String) : Except ApiError PrivateKey := do
  let f ← readFile P text
  if f.encryption = "none" then f.key P f.privateBlob false
  else do
    require (f.encryption = "aes256-cbc")
      (unsupported ("Unsupported PuTTY encryption \"" ++ f.encryption ++ "\""))
    let passphrase ← demand (truthy passphrase)
      ⟨400, "This private key is passphrase-protected; supply the passphrase to import it.",
        some "KEY_PASSPHRASE_REQUIRED"⟩
    let keys ← f.keys P passphrase
    let privateBlob ← f.decrypt P keys
    f.checkMac P keys privateBlob
    f.key P privateBlob true

/-! ## Authentication -/

section

variable {P} {text : String} {passphrase : Option String} {r : PrivateKey}

/-- A file has a MAC over its headers and its private blob, as the passphrase decrypts it, and the
MAC is right. -/
def Authenticated (P : Primitives) (text passphrase : String) : Prop :=
  ∃ f header keys privateBlob, readFile P text = .ok f ∧ f.mac = some header ∧
    header.key = "Private-MAC" ∧ f.keys P passphrase = .ok keys ∧
    f.decrypt P keys = .ok privateBlob ∧
    Hex.decode header.val.toList = f.computedMac P keys privateBlob

/-- The line after the private blob of a file is a header of the MAC with something in it. -/
def CarriesMac (P : Primitives) (text : String) : Prop :=
  ∃ f header, readFile P text = .ok f ∧ f.mac = some header ∧ header.key = "Private-MAC" ∧
    header.val ≠ ""

theorem timingSafeEqualHex_iff {a : Bytes} {b : String} (ha : a ≠ []) :
    timingSafeEqualHex a b = true ↔ Hex.decode b.toList = a := by
  unfold timingSafeEqualHex
  rw [decide_eq_true_iff]
  refine ⟨fun h ↦ h.2.2, fun h ↦ ⟨congrArg List.length h, ?_, h⟩⟩
  exact fun hlen ↦ ha (List.length_eq_zero_iff.mp hlen)

theorem readPuttyKey_eq_ok (h : readPuttyKey P text passphrase = .ok r) (hr : r.encrypted = true) :
    ∃ f pass keys privateBlob, readFile P text = .ok f ∧ truthy passphrase = some pass ∧
      f.keys P pass = .ok keys ∧ f.decrypt P keys = .ok privateBlob ∧
      f.checkMac P keys privateBlob = .ok () := by
  unfold readPuttyKey at h
  obtain ⟨f, hf, h⟩ := bind_eq_ok.mp h
  split at h
  · simp only [File.key, bind_eq_ok, pure_eq_ok] at h
    obtain ⟨pub, -, parts, -, -, -, rfl⟩ := h
    cases hr
  · simp only [bind_eq_ok, demand_eq_ok] at h
    obtain ⟨-, -, pass, hpass, keys, hkeys, privateBlob, hblob, ⟨⟩, hmac, -⟩ := h
    exact ⟨f, pass, keys, privateBlob, hf, hpass, hkeys, hblob, hmac⟩

/-- **A key that comes out of an encrypted file has been authenticated just when the file carries a
MAC.** -/
theorem readPuttyKey_authenticated (h : readPuttyKey P text passphrase = .ok r)
    (hr : r.encrypted = true) :
    (∃ pass, passphrase = some pass ∧ Authenticated P text pass) ↔ CarriesMac P text := by
  obtain ⟨f, pass, keys, privateBlob, hf, hpass, hkeys, hblob, hmac⟩ := readPuttyKey_eq_ok h hr
  obtain ⟨rfl, -⟩ := truthy_eq_some.mp hpass
  have hne : f.computedMac P keys privateBlob ≠ [] := P.hmac_ne_nil _ _ _
  constructor
  · rintro ⟨pass', hpass', f', header, keys', privateBlob', hf', hheader, hkey, hkeys', hblob', hval⟩
    obtain rfl := Except.ok.inj (hf.symm.trans hf')
    refine ⟨f, header, hf, hheader, hkey, fun hempty ↦ ?_⟩
    rw [hempty] at hval
    exact P.hmac_ne_nil _ _ _ hval.symm
  · rintro ⟨f', header, hf', hheader, hkey, hval⟩
    obtain rfl := Except.ok.inj (hf.symm.trans hf')
    refine ⟨pass, rfl, f, header, keys, privateBlob, hf, hheader, hkey, hkeys, hblob, ?_⟩
    unfold File.checkMac at hmac
    rw [hheader, Option.map_some, truthy_eq_some.mpr ⟨rfl, hval⟩] at hmac
    exact (timingSafeEqualHex_iff hne).mp (require_eq_ok.mp hmac)

end

/-! A file is read with its MAC, and without it. -/

private def toyPrimitives : Primitives where
  sha1 b := b
  hmac _ key data := [1, (key ++ data).foldl (· + ·) 0]
  hmac_ne_nil _ _ _ := List.cons_ne_nil _ _
  argon2 _ b := .ok b
  decipher key _ b := .ok (key.take 5 ++ b)
  readBuffer b := .ok (b, [])
  readPublic _ := .ok ("ed25519", [])
  checkKey _ _ := .ok ()
  toLowerCase s := s

private def ppk (mac : String) : String :=
  "PuTTY-User-Key-File-2: ssh-ed25519\nEncryption: aes256-cbc\nComment: laptop\n" ++
    "Public-Lines: 1\nAAAA\nPrivate-Lines: 1\nAAAA\n" ++ mac

private def isRead (text : String) : Bool :=
  match readPuttyKey toyPrimitives text (some "open") with
  | .ok r => r.encrypted
  | .error _ => false

private theorem exists_of_isRead {text : String} (h : isRead text = true) :
    ∃ r, readPuttyKey toyPrimitives text (some "open") = .ok r ∧ r.encrypted = true := by
  unfold isRead at h
  split at h
  · exact ⟨_, ‹_›, h⟩
  · cases h

private def macOf (text : String) : Option Header :=
  match readFile toyPrimitives text with
  | .ok f => f.mac
  | .error _ => none

theorem readPuttyKey_authenticated_in_use :
    ∃ pass, some "open" = some pass ∧
      Authenticated toyPrimitives (ppk "Private-MAC: 01d1") pass := by
  have hread : isRead (ppk "Private-MAC: 01d1") = true := by decide +kernel
  have hmac : macOf (ppk "Private-MAC: 01d1") = some ⟨"Private-MAC", "01d1"⟩ := by decide +kernel
  obtain ⟨r, hr, hencrypted⟩ := exists_of_isRead hread
  refine (readPuttyKey_authenticated hr hencrypted).mpr ?_
  obtain ⟨f, -, -, -, hf, -⟩ := readPuttyKey_eq_ok hr hencrypted
  unfold macOf at hmac
  rw [hf] at hmac
  exact ⟨f, _, hf, hmac, rfl, by decide⟩

/-- Without the last line the file is read all the same. -/
theorem readPuttyKey_without_mac :
    ¬ ∀ (P : Primitives) (text : String) (passphrase : Option String) (r : PrivateKey),
      readPuttyKey P text passphrase = .ok r → r.encrypted = true →
        ∃ pass, passphrase = some pass ∧ Authenticated P text pass := by
  intro h
  have hread : isRead (ppk "") = true := by decide +kernel
  have hmac : macOf (ppk "") = none := by decide +kernel
  obtain ⟨r, hr, hencrypted⟩ := exists_of_isRead hread
  obtain ⟨-, -, f, header, -, -, hf, hheader, -⟩ := h _ _ _ r hr hencrypted
  unfold macOf at hmac
  rw [hf] at hmac
  rw [show f.mac = none from hmac] at hheader
  cases hheader

end Shellius.Keystore.Putty
