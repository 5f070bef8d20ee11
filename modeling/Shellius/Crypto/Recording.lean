import Mathlib.Data.List.GetD
import Shellius.Crypto.Envelope
import Shellius.Lib.Transform

/-!
# Encrypted recordings

`recordingCrypto.js` encrypts the recording of a session on its way to the object storage: the
magic, the length of the wrapped data key, the wrapped data key, a nonce, the encrypted text and
its tag.  Reading holds the last sixteen bytes back, since they are the tag, and passes what does
not begin with the magic through, since it is a recording from before.

The bytes that `crypto.randomBytes` gives are an argument.
-/

namespace Shellius.Crypto.Recording

open Lib

/-- `MAGIC` -/
def magic : Bytes := utf8 "SHREC1"

structure Drawn where
  dek : Bytes
  iv : Bytes
  /-- The nonce with which the data key is wrapped. -/
  wrapIv : Bytes
  length_dek : dek.length = 32
  length_iv : iv.length = 12
  length_wrapIv : wrapIv.length = 12

/-- `dek.toString('hex')` -/
def Drawn.hex (d : Drawn) : String := .ofList (Hex.encode d.dek)

def writeUInt16BE (n : Nat) : Bytes := [.ofNat (n / 256), .ofNat (n % 256)]

/-- `readUInt16BE`, at an offset. -/
def readUInt16BE (b : Bytes) (offset : Nat) : Nat :=
  (b.getD offset 0).toNat * 256 + (b.getD (offset + 1) 0).toNat

section

variable (P : Primitives)

/-! ## Writing -/

/-- What precedes the encrypted text. -/
def header (d : Drawn) (wrapped : Bytes) : Bytes :=
  magic ++ writeUInt16BE wrapped.length ++ wrapped ++ d.iv

/-- Whether the header has been pushed, and what has been encrypted. -/
structure Encrypting where
  headerSent : Bool := false
  text : Bytes := []

def encryptStream (d : Drawn) (wrapped : Bytes) : Transform Encrypting UInt8 where
  transform s chunk :=
    let out := P.gcm.crypt d.dek d.iv s.text.length chunk
    .ok (⟨true, s.text ++ out⟩, (if s.headerSent then [] else header d wrapped) ++ out)
  flush s := .ok ((if s.headerSent then [] else header d wrapped) ++ P.gcm.tag d.dek d.iv s.text)

def createEncryptStream (config : Config) (d : Drawn) : Except String (Transform Encrypting UInt8) :=
  match encrypt P config d.hex d.wrapIv with
  | .error e => .error e
  | .ok envelope =>
    let wrapped := utf8 envelope
    if 65536 ≤ wrapped.length then .error "The value of \"value\" is out of range."
    else .ok (encryptStream P d wrapped)

/-! ## Reading -/

/-- A decipher: its key, its nonce, and what it has been given. -/
structure Decipher where
  key : Bytes
  iv : Bytes
  text : Bytes := []

/-- What is known of the text: not even whether it is encrypted, that it is not, or the decipher
and the last bytes seen. -/
inductive Mode where
  | sniffing (head : Bytes)
  | plain
  | enc (decipher : Decipher) (tail : Bytes)

def feedCipher (decipher : Decipher) (tail data : Bytes) : Mode × Bytes :=
  let buf := tail ++ data
  if buf.length ≤ 16 then (.enc decipher buf, [])
  else
    let text := buf.take (buf.length - 16)
    (.enc { decipher with text := decipher.text ++ text } (buf.drop (buf.length - 16)),
      P.gcm.crypt decipher.key decipher.iv decipher.text.length text)

/-- The length of the header that a text begins with. -/
def hdrLen (head : Bytes) : Nat := 6 + 2 + readUInt16BE head 6 + 12

/-- What is done while it is not known whether the text is encrypted. -/
def sniff (config : Config) (head : Bytes) : Except String (Mode × Bytes) :=
  if head.length < 6 then .ok (.sniffing head, [])
  else if head.take 6 ≠ magic then .ok (.plain, head)
  else if head.length < 6 + 2 then .ok (.sniffing head, [])
  else if head.length < hdrLen head then .ok (.sniffing head, [])
  else
    let wrappedLen := readUInt16BE head 6
    let wrapped := utf8Text P.lossy ((head.drop (6 + 2)).take wrappedLen)
    let iv := (head.drop (6 + 2 + wrappedLen)).take 12
    match decrypt P config wrapped with
    | .error e => .error e
    | .ok hex =>
      let dek := Hex.decode hex.toList
      if dek.length ≠ 32 then .error "Invalid key length"
      else
        let rest := head.drop (hdrLen head)
        .ok (if rest = [] then (.enc ⟨dek, iv, []⟩ [], []) else feedCipher P ⟨dek, iv, []⟩ [] rest)

def createDecryptStream (config : Config) : Transform Mode UInt8 where
  transform
    | .plain, chunk => .ok (.plain, chunk)
    | .enc decipher tail, chunk => .ok (feedCipher P decipher tail chunk)
    | .sniffing head, chunk => sniff P config (head ++ chunk)
  flush
    | .enc decipher tail =>
      if tail.length ≠ 16 then .error "Recording is truncated"
      else if P.gcm.accepts decipher.key decipher.iv decipher.text tail then .ok []
      else .error "Unsupported state or unable to authenticate data"
    | .sniffing head => .ok head
    | .plain => .ok []

/-- What is pushed when a text is encrypted that is written in these pieces. -/
def encrypted (config : Config) (d : Drawn) (chunks : List Bytes) : Except String (Bytes × Option String) :=
  (createEncryptStream P config d).map fun T ↦ T.run {} chunks

/-- What is pushed when a text is decrypted that is written in these pieces. -/
def decrypted (config : Config) (chunks : List Bytes) : Bytes × Option String :=
  (createDecryptStream P config).run (.sniffing []) chunks

end

variable {P : Primitives} {config config' : Config} {d : Drawn} {current wrapped text tail data a : Bytes}

/-! ## The header -/

theorem length_magic : magic.length = 6 := by decide

theorem length_header (d : Drawn) (wrapped : Bytes) :
    (header d wrapped).length = 6 + 2 + wrapped.length + 12 := by
  unfold header
  rw [List.length_append, List.length_append, List.length_append, length_magic, d.length_iv]
  rfl

theorem readUInt16BE_header (hlength : wrapped.length < 65536) {b : Bytes} :
    readUInt16BE (magic ++ writeUInt16BE wrapped.length ++ b) 6 = wrapped.length := by
  have hmagic : magic = [83, 72, 82, 69, 67, 49] := by decide
  have hhigh : (UInt8.ofNat (wrapped.length / 256)).toNat = wrapped.length / 256 := by
    rw [UInt8.toNat_ofNat']
    omega
  have hlow : (UInt8.ofNat (wrapped.length % 256)).toNat = wrapped.length % 256 := by
    rw [UInt8.toNat_ofNat']
    omega
  rw [hmagic]
  show (UInt8.ofNat (wrapped.length / 256)).toNat * 256 + (UInt8.ofNat (wrapped.length % 256)).toNat =
    wrapped.length
  rw [hhigh, hlow]
  omega

theorem readUInt16BE_append {offset : Nat} (h : offset + 1 < a.length) (b : Bytes) :
    readUInt16BE (a ++ b) offset = readUInt16BE a offset := by
  unfold readUInt16BE
  rw [List.getD_append _ _ _ _ (by omega), List.getD_append _ _ _ _ h]

theorem take_header (d : Drawn) (wrapped b : Bytes) : (header d wrapped ++ b).take 6 = magic := by
  rw [header, List.append_assoc, List.append_assoc, List.append_assoc, ← length_magic, List.take_left]

theorem readUInt16BE_header_append (hlength : wrapped.length < 65536) (b : Bytes) :
    readUInt16BE (header d wrapped ++ b) 6 = wrapped.length := by
  rw [header, List.append_assoc, List.append_assoc]
  exact readUInt16BE_header hlength

def Drawn.wrap (d : Drawn) (current : Bytes) : Message := ⟨current, d.wrapIv, d.hex, true⟩

theorem encrypt_wrap (d : Drawn) (hcurrent : getCurrentKeyBuffer P config = .ok current) :
    encrypt P config d.hex d.wrapIv = .ok ((d.wrap current).text P) := by
  unfold encrypt Message.text
  rw [hcurrent]
  rfl

theorem length_wrap_lt (d : Drawn) (htag : ((d.wrap current).authTag P).length = 16) :
    (utf8 ((d.wrap current).text P)).length < 65536 := by
  have hhex : (utf8 d.hex).length ≤ 4 * (2 * 32) := by
    refine (length_utf8_le _).trans ?_
    rw [Hex.length_encode, d.length_dek]
  have hblob := Base64.length_encode_le
    (d.wrapIv ++ (d.wrap current).authTag P ++ (d.wrap current).encrypted P)
  rw [List.length_append, List.length_append, d.length_wrapIv, htag, Message.encrypted,
    Aead.length_crypt] at hblob
  have hfingerprint : (fingerprint P current).length ≤ 8 := List.length_take_le _ _
  have htext : (utf8 ((d.wrap current).text P)).length ≤
      4 * (2 + ((fingerprint P current).length + ((blob P current d.wrapIv d.hex).length + 1) + 1)) := by
    refine (length_utf8_le _).trans ?_
    simp only [List.length_append, List.length_cons]
    exact Nat.le_refl _
  have hplain : (d.wrap current).plaintext = d.hex := rfl
  have hblob' : (blob P current d.wrapIv d.hex).length ≤ 2 * (12 + 16 + (utf8 d.hex).length) + 2 := hblob
  omega

/-! ## Writing -/

def sealed (P : Primitives) (d : Drawn) (current plain : Bytes) : Bytes :=
  header d (utf8 ((d.wrap current).text P)) ++
    (P.gcm.crypt d.dek d.iv 0 plain ++ P.gcm.tag d.dek d.iv (P.gcm.crypt d.dek d.iv 0 plain))

theorem encryptStream_tracks (P : Primitives) (d : Drawn) (wrapped plain : Bytes) :
    (encryptStream P d wrapped).Tracks plain {} fun a s o ↦
      s.text = P.gcm.crypt d.dek d.iv 0 a ∧
        o ++ (if s.headerSent then [] else header d wrapped) = header d wrapped ++ s.text where
  start := by
    refine ⟨rfl, ?_⟩
    simp
  chunk := by
    intro a s o c hR hw
    obtain ⟨htext, hpushed⟩ := hR
    refine ⟨_, _, rfl, ?_, ?_⟩
    · rw [htext, Aead.crypt_append, Aead.length_crypt, Nat.zero_add]
    · rw [if_pos rfl, List.append_nil, ← List.append_assoc, hpushed, List.append_assoc]

theorem encrypted_eq (hcurrent : getCurrentKeyBuffer P config = .ok current)
    (htag : ((d.wrap current).authTag P).length = 16) (chunks : List Bytes) :
    encrypted P config d chunks = .ok (sealed P d current chunks.flatten, none) := by
  unfold encrypted createEncryptStream
  rw [encrypt_wrap d hcurrent]
  dsimp only
  rw [if_neg (Nat.not_le.mpr (length_wrap_lt d htag))]
  obtain ⟨s, o, ⟨htext, hpushed⟩, hrun⟩ :=
    (encryptStream_tracks P d (utf8 ((d.wrap current).text P)) chunks.flatten).run
      (rfl : chunks.flatten = chunks.flatten)
  have hflush : o ++ ((if s.headerSent then [] else header d (utf8 ((d.wrap current).text P))) ++
      P.gcm.tag d.dek d.iv s.text) = sealed P d current chunks.flatten := by
    rw [← List.append_assoc, hpushed, htext, List.append_assoc]
    rfl
  show Except.ok ((encryptStream P d _).run {} chunks) = _
  rw [hrun]
  exact congrArg (fun b ↦ Except.ok (b, none)) hflush

/-! ## Reading -/

theorem sniff_of_lt (hlength : wrapped.length < 65536) (ha : a <+: header d wrapped)
    (hlt : a.length < (header d wrapped).length) : sniff P config a = .ok (.sniffing a, []) := by
  obtain ⟨b, hb⟩ := ha
  unfold sniff
  split
  · rfl
  · rename_i h6
    have hmagic : a.take 6 = magic := by
      have htake : (a ++ b).take 6 = magic := by
        rw [hb, ← List.append_nil (header d wrapped), take_header]
      rwa [List.take_append_of_le_length (Nat.not_lt.mp h6)] at htake
    rw [if_neg (not_not.mpr hmagic)]
    split
    · rfl
    · rename_i h8
      have hread : readUInt16BE a 6 = wrapped.length := by
        rw [← readUInt16BE_append (by omega) b, hb, ← List.append_nil (header d wrapped),
          readUInt16BE_header_append hlength]
      rw [if_pos]
      rw [hdrLen, hread, ← length_header d wrapped]
      exact hlt

theorem sniff_header (hlength : wrapped.length < 65536)
    (hdecrypt : decrypt P config (utf8Text P.lossy wrapped) = .ok d.hex) (data : Bytes) :
    sniff P config (header d wrapped ++ data) = .ok (feedCipher P ⟨d.dek, d.iv, []⟩ [] data) := by
  have hread := readUInt16BE_header_append hlength (d := d) data
  have hlen : hdrLen (header d wrapped ++ data) = (header d wrapped).length := by
    rw [hdrLen, hread, length_header]
  have hbegin : (magic ++ writeUInt16BE wrapped.length).length = 6 + 2 := by
    rw [List.length_append, length_magic]
    rfl
  have hassoc : header d wrapped ++ data =
      (magic ++ writeUInt16BE wrapped.length) ++ (wrapped ++ (d.iv ++ data)) := by
    rw [header, List.append_assoc, List.append_assoc]
  have hdrop : (header d wrapped ++ data).drop (6 + 2) = wrapped ++ (d.iv ++ data) := by
    rw [hassoc, ← hbegin, List.drop_left]
  have hkey : ((header d wrapped ++ data).drop (6 + 2)).take wrapped.length = wrapped := by
    rw [hdrop, List.take_left]
  have hnonce : ((header d wrapped ++ data).drop (6 + 2 + wrapped.length)).take 12 = d.iv := by
    rw [← List.drop_drop, hdrop, List.drop_left, ← d.length_iv, List.take_left]
  have htotal : (header d wrapped).length ≤ (header d wrapped ++ data).length := by
    rw [List.length_append]
    exact Nat.le_add_right _ _
  have hheader := length_header d wrapped
  unfold sniff
  rw [if_neg (by omega), if_neg (not_not.mpr (take_header d wrapped data)), if_neg (by omega),
    if_neg (by omega), hlen, List.drop_left]
  dsimp only
  rw [hread, hkey, hnonce, hdecrypt]
  dsimp only
  rw [Drawn.hex, String.toList_ofList, Hex.decode_encode, if_neg (not_not.mpr d.length_dek)]
  split
  · rename_i hnil
    rw [hnil]
    rfl
  · rfl

theorem feedCipher_eq (P : Primitives) (d : Drawn) (text tail data : Bytes)
    (hheld : tail.length = 16 ∨ text = []) :
    ∃ text' tail', feedCipher P ⟨d.dek, d.iv, text⟩ tail data =
        (.enc ⟨d.dek, d.iv, text ++ text'⟩ tail', P.gcm.crypt d.dek d.iv text.length text') ∧
      text' ++ tail' = tail ++ data ∧ tail'.length ≤ 16 ∧ (tail'.length = 16 ∨ text ++ text' = []) := by
  unfold feedCipher
  dsimp only
  split
  · rename_i hshort
    refine ⟨[], tail ++ data, by rw [List.append_nil]; rfl, rfl, hshort, ?_⟩
    obtain hfull | rfl := hheld
    · rw [List.length_append] at hshort ⊢
      exact .inl (by omega)
    · exact .inr rfl
  · rename_i hlong
    have hdrop : ((tail ++ data).drop ((tail ++ data).length - 16)).length = 16 := by
      rw [List.length_drop]
      omega
    exact ⟨_, _, rfl, List.take_append_drop _ _, hdrop.le, .inl hdrop⟩

/-- What is known when a text has been read: the header is not complete, or everything after it
has been decrypted but the bytes that are held back. -/
def Reads (P : Primitives) (d : Drawn) (wrapped a : Bytes) (mode : Mode) (o : Bytes) : Prop :=
  (a.length < (header d wrapped).length ∧ mode = .sniffing a ∧ o = []) ∨
    ∃ text tail, a = header d wrapped ++ (text ++ tail) ∧ mode = .enc ⟨d.dek, d.iv, text⟩ tail ∧
      o = P.gcm.crypt d.dek d.iv 0 text ∧ tail.length ≤ 16 ∧ (tail.length = 16 ∨ text = [])

theorem decryptStream_tracks {w body : Bytes} (hlength : wrapped.length < 65536)
    (hdecrypt : decrypt P config (utf8Text P.lossy wrapped) = .ok d.hex)
    (hw : w <+: header d wrapped ++ body) :
    (createDecryptStream P config).Tracks w (.sniffing []) (Reads P d wrapped) where
  start := by
    have hheader := length_header d wrapped
    refine .inl ⟨?_, rfl, rfl⟩
    rw [hheader]
    exact Nat.succ_pos _
  chunk := by
    rintro a mode o c (⟨-, rfl, rfl⟩ | ⟨text, tail, rfl, rfl, rfl, -, hheld⟩) hc
    · by_cases hlt : (a ++ c).length < (header d wrapped).length
      · have hbegins : a ++ c <+: header d wrapped :=
          List.prefix_of_prefix_length_le (hc.trans hw) (List.prefix_append _ _) hlt.le
        exact ⟨_, _, sniff_of_lt hlength hbegins hlt, .inl ⟨hlt, rfl, rfl⟩⟩
      · obtain ⟨data, hdata⟩ : header d wrapped <+: a ++ c :=
          List.prefix_of_prefix_length_le (List.prefix_append _ _) (hc.trans hw) (Nat.not_lt.mp hlt)
        obtain ⟨text', tail', hfeed, hsplit, hle, hheld'⟩ :=
          feedCipher_eq P d [] [] data (.inr rfl)
        refine ⟨_, _, ?_, .inr ⟨text', tail', ?_, rfl, rfl, hle, hheld'⟩⟩
        · show sniff P config (a ++ c) = _
          rw [← hdata, sniff_header hlength hdecrypt, hfeed]
          rfl
        · rw [← hdata, hsplit, List.nil_append]
    · obtain ⟨text', tail', hfeed, hsplit, hle, hheld'⟩ :=
        feedCipher_eq P d text tail c hheld
      refine ⟨_, _, congrArg Except.ok hfeed, .inr ⟨text ++ text', tail', ?_, rfl, ?_, hle, hheld'⟩⟩
      · rw [List.append_assoc, List.append_assoc, List.append_assoc, hsplit]
      · rw [Aead.crypt_append, Nat.zero_add]

/-! ## What is read of a recording, and of the beginning of one -/

section

variable {made : Bytes → Bytes → Bytes → Prop} {plain : Bytes}

theorem decrypt_wrap (h : P.gcm.Ideal made) (hdistinct : Distinct P config)
    (hk : current ∈ keys P config) (htag : ((d.wrap current).authTag P).length = 16)
    (hmade : made current d.wrapIv ((d.wrap current).encrypted P)) :
    decrypt P config (utf8Text P.lossy (utf8 ((d.wrap current).text P))) = .ok d.hex := by
  rw [utf8Text_utf8]
  exact decrypt_versioned hdistinct hk rfl d.length_wrapIv htag (h.complete hmade)

theorem decrypted_of_lt {pieces : List Bytes} (hlength : wrapped.length < 65536)
    (hdecrypt : decrypt P config (utf8Text P.lossy wrapped) = .ok d.hex)
    (hbegins : pieces.flatten <+: header d wrapped)
    (hlt : pieces.flatten.length < (header d wrapped).length) :
    decrypted P config pieces = (pieces.flatten, none) := by
  have hw : pieces.flatten <+: header d wrapped ++ [] := by rwa [List.append_nil]
  obtain ⟨mode, o, hreads, hrun⟩ := (decryptStream_tracks hlength hdecrypt hw).run
    (rfl : pieces.flatten = pieces.flatten)
  obtain ⟨-, rfl, rfl⟩ | ⟨text, tail, hw', -⟩ := hreads
  · exact hrun
  · rw [hw', List.length_append] at hlt
    exact absurd hlt (Nat.not_lt.mpr (Nat.le_add_right _ _))

theorem decrypted_of_header {pieces : List Bytes} {body : Bytes} (hlength : wrapped.length < 65536)
    (hdecrypt : decrypt P config (utf8Text P.lossy wrapped) = .ok d.hex)
    (hpieces : pieces.flatten = header d wrapped ++ body) :
    ∃ text tail, body = text ++ tail ∧ tail.length ≤ 16 ∧ (tail.length = 16 ∨ text = []) ∧
      decrypted P config pieces =
        (P.gcm.crypt d.dek d.iv 0 text,
          if tail.length ≠ 16 then some "Recording is truncated"
          else if P.gcm.accepts d.dek d.iv text tail then none
          else some "Unsupported state or unable to authenticate data") := by
  obtain ⟨mode, o, hreads, hrun⟩ :=
    (decryptStream_tracks hlength hdecrypt List.prefix_rfl).run hpieces
  obtain ⟨hlt, -, -⟩ | ⟨text, tail, hbody, rfl, rfl, hle, hheld⟩ := hreads
  · rw [List.length_append] at hlt
    exact absurd hlt (Nat.not_lt.mpr (Nat.le_add_right _ _))
  · refine ⟨text, tail, List.append_cancel_left hbody, hle, hheld, hrun.trans ?_⟩
    dsimp only [createDecryptStream]
    split_ifs with h16 haccepts
    · rfl
    · exact congrArg (·, none) (List.append_nil _)
    · rfl

theorem decrypted_sealed {pieces : List Bytes} (h : P.gcm.Ideal made)
    (hdistinct : Distinct P config) (hk : current ∈ keys P config)
    (htag : ∀ k n c, (P.gcm.tag k n c).length = 16)
    (hwrap : made current d.wrapIv ((d.wrap current).encrypted P))
    (hmade : made d.dek d.iv (P.gcm.crypt d.dek d.iv 0 plain))
    (hpieces : pieces.flatten = sealed P d current plain) :
    decrypted P config pieces = (plain, none) := by
  obtain ⟨text, tail, hbody, hle, hheld, hdecrypted⟩ := decrypted_of_header
    (length_wrap_lt d (htag _ _ _)) (decrypt_wrap h hdistinct hk (htag _ _ _) hwrap) hpieces
  have h16 : tail.length = 16 := by
    obtain h16 | rfl := hheld
    · exact h16
    · have hlength := congrArg List.length hbody
      rw [List.length_append, htag, List.nil_append] at hlength
      omega
  obtain ⟨rfl, rfl⟩ := List.append_inj' hbody (by rw [htag, h16])
  rw [hdecrypted, if_neg (not_not.mpr h16), if_pos (h.complete hmade), Aead.crypt_crypt]

theorem decrypted_truncated {pieces : List Bytes} {n : Nat} (h : P.gcm.Ideal made)
    (hdistinct : Distinct P config) (hk : current ∈ keys P config)
    (htag : ∀ k n c, (P.gcm.tag k n c).length = 16)
    (hwrap : made current d.wrapIv ((d.wrap current).encrypted P))
    (hfresh : ∀ c, made d.dek d.iv c → c = P.gcm.crypt d.dek d.iv 0 plain)
    (hheader : (header d (utf8 ((d.wrap current).text P))).length ≤ n)
    (hn : n < (sealed P d current plain).length)
    (hpieces : pieces.flatten = (sealed P d current plain).take n) :
    (decrypted P config pieces).2.isSome = true := by
  rw [sealed, List.take_append, List.take_of_length_le hheader] at hpieces
  obtain ⟨text, tail, hbody, -, -, hdecrypted⟩ := decrypted_of_header
    (length_wrap_lt d (htag _ _ _)) (decrypt_wrap h hdistinct hk (htag _ _ _) hwrap) hpieces
  rw [hdecrypted]
  dsimp only
  split_ifs with h16 haccepts
  · rfl
  · -- an accepted text is the whole one, and there are not enough bytes for it and its tag
    obtain ⟨hmade, -⟩ := h.genuine haccepts
    have hlength := congrArg List.length hbody
    rw [hfresh text hmade, List.length_take, List.length_append, List.length_append, htag,
      not_not.mp h16] at hlength
    rw [sealed, List.length_append, List.length_append, htag] at hn
    omega
  · rfl

/-- **A recording is read back, and the loss of its end is noticed once its header has been read.**
However it is written and read in pieces, decrypting gives the recording.  The beginning of an
encrypted recording that has the magic fails exactly if it has the whole header. -/
theorem decrypted_iff (htag : ∀ k n c, (P.gcm.tag k n c).length = 16)
    (hcurrent : getCurrentKeyBuffer P config = .ok current) (hdistinct : Distinct P config')
    (hk : current ∈ keys P config') (h : P.gcm.Ideal made)
    (hwrap : made current d.wrapIv ((d.wrap current).encrypted P))
    (hfresh : ∀ c, made d.dek d.iv c ↔ c = P.gcm.crypt d.dek d.iv 0 plain) :
    ∃ b, ∀ chunks : List Bytes, chunks.flatten = plain →
      encrypted P config d chunks = .ok (b, none) ∧
      (∀ pieces : List Bytes, pieces.flatten = b → decrypted P config' pieces = (plain, none)) ∧
      ∀ n, 6 ≤ n → n < b.length → ∀ pieces : List Bytes, pieces.flatten = b.take n →
        ((decrypted P config' pieces).2.isSome = true ↔ hdrLen b ≤ n) := by
  have hlength := length_wrap_lt d (htag current d.wrapIv ((d.wrap current).encrypted P))
  have hdecrypt := decrypt_wrap h hdistinct hk (htag _ _ _) hwrap
  refine ⟨sealed P d current plain, fun chunks hchunks ↦ ⟨?_, ?_, ?_⟩⟩
  · rw [encrypted_eq hcurrent (htag _ _ _), hchunks]
  · intro pieces hpieces
    exact decrypted_sealed h hdistinct hk htag hwrap ((hfresh _).mpr rfl) hpieces
  · intro n _ hn pieces hpieces
    have hhdrLen : hdrLen (sealed P d current plain) =
        (header d (utf8 ((d.wrap current).text P))).length := by
      rw [hdrLen, sealed, readUInt16BE_header_append hlength, length_header]
    rw [hhdrLen]
    constructor
    · intro hfails
      by_contra hlt
      have hbegins : pieces.flatten <+: header d (utf8 ((d.wrap current).text P)) := by
        rw [hpieces, sealed, List.take_append_of_le_length (Nat.le_of_not_le hlt)]
        exact List.take_prefix _ _
      have hshort : pieces.flatten.length < (header d (utf8 ((d.wrap current).text P))).length := by
        rw [hpieces, List.length_take]
        omega
      rw [decrypted_of_lt hlength hdecrypt hbegins hshort] at hfails
      cases hfails
    · intro hle
      exact decrypted_truncated h hdistinct hk htag hwrap (fun c ↦ (hfresh c).mp) hle hn hpieces

end

/-! ## A recording of one byte -/

def drawn : Drawn where
  dek := List.replicate 32 5
  iv := List.replicate 12 2
  wrapIv := List.replicate 12 3
  length_dek := rfl
  length_iv := rfl
  length_wrapIv := rfl

def recordedMade : List (Bytes × Bytes × Bytes) :=
  [(oldKey, drawn.wrapIv, utf8 drawn.hex), (drawn.dek, drawn.iv, [1])]

def recorded : Primitives := listed recordedMade

theorem encrypted_drawn : (drawn.wrap oldKey).encrypted recorded = utf8 drawn.hex := by
  decide

theorem fresh_drawn (c : Bytes) : (drawn.dek, drawn.iv, c) ∈ recordedMade ↔
    c = recorded.gcm.crypt drawn.dek drawn.iv 0 [1] := by
  have hne : drawn.dek ≠ oldKey := by decide
  have hcrypt : recorded.gcm.crypt drawn.dek drawn.iv 0 [1] = [1] := by decide
  rw [hcrypt, recordedMade]
  simp [hne]

theorem decrypted_iff_drawn :
    ∃ b, encrypted recorded { key := "a" } drawn [[], [1]] = .ok (b, none) ∧
      decrypted recorded { key := "b", previousKeys := ["a"] } [b.take 3, b.drop 3] = ([1], none) := by
  obtain ⟨b, hb⟩ := decrypted_iff (P := recorded) (d := drawn) (fun _ _ _ ↦ List.length_replicate)
    (by decide : getCurrentKeyBuffer recorded { key := "a" } = .ok oldKey)
    (by decide : Distinct recorded { key := "b", previousKeys := ["a"] })
    (by decide) (ideal_listed fun _ _ _ ↦ Iff.rfl)
    (encrypted_drawn ▸ List.mem_cons_self) fresh_drawn
  obtain ⟨hwritten, hread, -⟩ := hb [[], [1]] rfl
  exact ⟨b, hwritten, hread _ (by simp)⟩

/-- Without the rest of the header the magic is read as a recording from before. -/
theorem decrypted_magic :
    recorded.gcm.Ideal (fun k n c ↦ (k, n, c) ∈ recordedMade) ∧
      ∃ b, encrypted recorded { key := "a" } drawn [[1]] = .ok (b, none) ∧ 6 < b.length ∧
        b.take 6 = magic ∧ decrypted recorded { key := "a" } [b.take 6] = (magic, none) := by
  refine ⟨ideal_listed fun _ _ _ ↦ Iff.rfl, _,
    encrypted_eq (by decide : getCurrentKeyBuffer recorded { key := "a" } = .ok oldKey) rfl [[1]],
    ?_, ?_, ?_⟩
  · decide +kernel
  · decide
  · decide

end Shellius.Crypto.Recording
