import Shellius.Lib.Dict
import Shellius.Lib.Encodings
import Shellius.Lib.Pool

/-!
# Encrypted secrets

`crypto.js` encrypts the secrets that are stored.  What it writes names the key by its
fingerprint, and it reads what was written with the current key or a previous one.  Older
rows have no such name; for them every key is tried.

SHA-256 and AES-256-GCM are the library's.  A string is one of well-formed Unicode; what the
decoder makes of bytes that are not UTF-8 is left open.
-/

namespace Shellius.Crypto

open Lib

/-- What is used of the library. -/
structure Primitives where
  sha256 : Bytes → Bytes
  gcm : Aead Bytes Bytes
  lossy : Bytes → String

/-- `config.encryption`, and whether `nodeEnv` is `production`. -/
structure Config where
  key : String := ""
  previousKeys : List String := []
  production : Bool := false
deriving DecidableEq

section

variable (P : Primitives)

/-! ## Keys -/

/-- `/^[0-9a-fA-F]{64}$/` -/
def isHex64 (s : String) : Bool := s.toList.length = 64 ∧ s.toList.all fun c ↦ (Hex.value c).isSome

def deriveKeyBuffer (keyString : String) : Bytes :=
  if isHex64 keyString then Hex.decode keyString.toList else P.sha256 (utf8 keyString)

def fingerprint (keyBuffer : Bytes) : List Char := (Hex.encode (P.sha256 keyBuffer)).take 8

def devFallbackKeyBuffer : Bytes := P.sha256 (utf8 "dev-encryption-key")

def getCurrentKeyBuffer (config : Config) : Except String Bytes :=
  if config.key = "" then
    if config.production then
      .error "SERVER_ENCRYPTION_KEY is not set. Refusing to encrypt/decrypt."
    else .ok (devFallbackKeyBuffer P)
  else .ok (deriveKeyBuffer P config.key)

/-- The previous keys that are not empty. -/
def previousKeyBuffers (config : Config) : List Bytes :=
  (config.previousKeys.filter (· ≠ "")).map (deriveKeyBuffer P)

/-- A map from fingerprints to keys. -/
abbrev Registry := Dict (List Char) Bytes

def getKeyRegistry (config : Config) : Except String Registry :=
  match getCurrentKeyBuffer P config with
  | .error e => .error e
  | .ok current =>
    .ok (Dict.ofList ((current :: previousKeyBuffers P config).map fun buf ↦ (fingerprint P buf, buf)))

def getLegacyCandidateKeys (config : Config) : List Bytes :=
  (match getCurrentKeyBuffer P config with
    | .error _ => []
    | .ok current => [current]) ++
  previousKeyBuffers P config ++ if config.production then [] else [devFallbackKeyBuffer P]

/-! ## Envelopes -/

def gcmDecrypt (keyBuffer iv authTag encrypted : Bytes) : Except String String :=
  match P.gcm.decrypt keyBuffer iv encrypted authTag with
  | none => .error "Unsupported state or unable to authenticate data"
  | some plain => .ok (utf8Text P.lossy plain)

/-- `Buffer.concat([iv, authTag, encrypted]).toString('base64')` -/
def blob (keyBuffer iv : Bytes) (plaintext : String) : List Char :=
  let encrypted := P.gcm.crypt keyBuffer iv 0 (utf8 plaintext)
  Base64.encode (iv ++ P.gcm.tag keyBuffer iv encrypted ++ encrypted)

def envelope (keyBuffer iv : Bytes) (plaintext : String) : String :=
  .ofList ("v2".toList ++ ':' :: (fingerprint P keyBuffer ++ ':' :: blob P keyBuffer iv plaintext))

/-- `encrypt`, with the bytes that `crypto.randomBytes` gives. -/
def encrypt (config : Config) (plaintext : String) (iv : Bytes) : Except String String :=
  match getCurrentKeyBuffer P config with
  | .error e => .error e
  | .ok keyBuffer => .ok (envelope P keyBuffer iv plaintext)

/-- The first of the candidate keys that decrypts. -/
def tryKeys (iv authTag encrypted : Bytes) : List Bytes → Option String → Except String String
  | [], lastError => .error (lastError.getD "decrypt: unable to decrypt legacy envelope")
  | keyBuffer :: rest, _ =>
    match gcmDecrypt P keyBuffer iv authTag encrypted with
    | .ok plaintext => .ok plaintext
    | .error e => tryKeys iv authTag encrypted rest (some e)

/-- `decrypt` of a string. -/
def decrypt (config : Config) (ciphertext : String) : Except String String :=
  if ciphertext = "" then .error "decrypt: ciphertext must be a non-empty string"
  else if "v2:".toList <+: ciphertext.toList then
    match ciphertext.toList.splitOn ':' with
    | [_, keyId, blobB64] =>
      match getKeyRegistry P config with
      | .error e => .error e
      | .ok registry =>
        match Dict.get registry keyId with
        | none =>
          .error "decrypt: no matching key for envelope keyId (rotate/reencrypt needed?)"
        | some keyBuffer =>
          let data := Base64.decode blobB64
          gcmDecrypt P keyBuffer (data.take 12) ((data.drop 12).take 16) (data.drop 28)
    | _ => .error "decrypt: malformed v2 envelope"
  else
    let data := Base64.decode ciphertext.toList
    tryKeys P (data.take 12) ((data.drop 12).take 16) (data.drop 28) (getLegacyCandidateKeys P config)
      none

/-! ## Messages -/

/-- What has been encrypted: with which key and nonce, and in which format. -/
structure Message where
  key : Bytes
  iv : Bytes
  plaintext : String
  versioned : Bool
deriving DecidableEq

def Message.encrypted (m : Message) : Bytes := P.gcm.crypt m.key m.iv 0 (utf8 m.plaintext)

def Message.authTag (m : Message) : Bytes := P.gcm.tag m.key m.iv (m.encrypted P)

def Message.text (m : Message) : String :=
  if m.versioned then envelope P m.key m.iv m.plaintext else .ofList (blob P m.key m.iv m.plaintext)

/-- What has been made with a key and a nonce. -/
def Made (ms : List Message) (k n c : Bytes) : Prop := ∃ m ∈ ms, m.key = k ∧ m.iv = n ∧ m.encrypted P = c

def payload (text : String) : Bytes :=
  if "v2:".toList <+: text.toList then Base64.decode ((text.toList.splitOn ':').getD 2 [])
  else Base64.decode text.toList

/-- A text carries the nonce and the encrypted bytes of a message, and its tag or the beginning
of it. -/
def Carries (text : String) (m : Message) : Prop :=
  (payload text).take 12 = m.iv ∧ ((payload text).drop 12).take 16 <+: m.authTag P ∧
    (payload text).drop 28 = m.encrypted P

/-- The keys that are tried on a message. -/
def keysFor (config : Config) (versioned : Bool) : List Bytes :=
  if versioned then
    match getKeyRegistry P config with
    | .error _ => []
    | .ok registry => registry.map Prod.snd
  else getLegacyCandidateKeys P config

/-! ## Rotation -/

/-- The keys of a configuration: the primary one, and with it the secondary ones. -/
def keys (config : Config) : List Bytes :=
  match getCurrentKeyBuffer P config with
  | .error _ => []
  | .ok current => current :: previousKeyBuffers P config

/-- The keys are told by their fingerprints. -/
def Distinct (config : Config) : Prop :=
  ∀ k ∈ keys P config, ∀ k' ∈ keys P config, fingerprint P k = fingerprint P k' → k = k'

instance (config : Config) : Decidable (Distinct P config) := List.decidableBAll ..

/-- The configuration, and what has been encrypted so far. -/
structure Store where
  config : Config
  messages : List Message := []
deriving DecidableEq

inductive Event where
  /-- A key is added, and the others are kept. -/
  | rotate (config : Config)
  | encrypt (plaintext : String) (iv : Bytes)
  /-- A row in the older format is written. -/
  | encryptLegacy (plaintext : String) (iv : Bytes)

/-- A message with the current key and a nonce that has not been used. -/
def Store.add (s : Store) (plaintext : String) (iv : Bytes) (versioned : Bool) : Option Store :=
  match getCurrentKeyBuffer P s.config with
  | .error _ => none
  | .ok current =>
    if iv.length = 12 ∧ ∀ m ∈ s.messages, m.iv ≠ iv then
      some { s with messages := s.messages ++ [⟨current, iv, plaintext, versioned⟩] }
    else none

def step (s : Store) : Event → Option Store
  | .rotate config =>
    if (∀ k ∈ keys P s.config, k ∈ keys P config) ∧ Distinct P config then some { s with config }
    else none
  | .encrypt plaintext iv => s.add P plaintext iv true
  | .encryptLegacy plaintext iv => s.add P plaintext iv false

end

variable {P : Primitives} {config : Config} {m : Message} {ms : List Message} {text p : String}
  {k iv c t : Bytes}

/-! ## Reading back what was written -/

theorem colon_notMem_fingerprint (P : Primitives) (k : Bytes) : ':' ∉ fingerprint P k :=
  fun h ↦ Hex.colon_notMem_encode _ (List.mem_of_mem_take h)

theorem splitOn_envelope (P : Primitives) (k iv : Bytes) (plaintext : String) :
    (envelope P k iv plaintext).toList.splitOn ':' =
      ["v2".toList, fingerprint P k, blob P k iv plaintext] := by
  have hjoin : (envelope P k iv plaintext).toList =
      [':'].intercalate ["v2".toList, fingerprint P k, blob P k iv plaintext] := by
    unfold envelope
    rw [String.toList_ofList]
    simp [List.intercalate]
  rw [hjoin]
  refine List.splitOn_intercalate ':' ?_ (List.cons_ne_nil _ _)
  intro l hl
  simp only [List.mem_cons, List.not_mem_nil, or_false] at hl
  obtain rfl | rfl | rfl := hl
  · decide
  · exact colon_notMem_fingerprint P k
  · exact Base64.colon_notMem_encode _

theorem startsWith_envelope (P : Primitives) (k iv : Bytes) (plaintext : String) :
    "v2:".toList <+: (envelope P k iv plaintext).toList := by
  unfold envelope
  rw [String.toList_ofList]
  exact ⟨fingerprint P k ++ ':' :: blob P k iv plaintext, by simp⟩

theorem not_startsWith_blob (P : Primitives) (k iv : Bytes) (plaintext : String) :
    ¬ "v2:".toList <+: (String.ofList (blob P k iv plaintext)).toList := by
  intro h
  have hcolon : ':' ∈ "v2:".toList := by decide
  have hmem := h.subset hcolon
  rw [String.toList_ofList] at hmem
  exact Base64.colon_notMem_encode _ hmem

theorem startsWith_text (P : Primitives) (m : Message) :
    decide ("v2:".toList <+: (m.text P).toList) = m.versioned := by
  unfold Message.text
  cases m.versioned with
  | true => exact decide_eq_true (startsWith_envelope P _ _ _)
  | false => exact decide_eq_false (not_startsWith_blob P _ _ _)

theorem payload_text (P : Primitives) (m : Message) :
    payload (m.text P) = m.iv ++ m.authTag P ++ m.encrypted P := by
  unfold payload Message.text
  cases m.versioned with
  | true =>
    rw [if_pos rfl, if_pos (startsWith_envelope P _ _ _), splitOn_envelope]
    exact Base64.decode_encode _
  | false =>
    rw [if_neg Bool.false_ne_true, if_neg (not_startsWith_blob P _ _ _), String.toList_ofList]
    exact Base64.decode_encode _

theorem payload_text_parts (hiv : m.iv.length = 12) (htag : (m.authTag P).length = 16) :
    (payload (m.text P)).take 12 = m.iv ∧ ((payload (m.text P)).drop 12).take 16 = m.authTag P ∧
      (payload (m.text P)).drop 28 = m.encrypted P := by
  have hdrop : (payload (m.text P)).drop 12 = m.authTag P ++ m.encrypted P := by
    rw [payload_text, List.append_assoc, List.drop_append_of_le_length hiv.ge, ← hiv, List.drop_length,
      List.nil_append]
  refine ⟨?_, ?_, ?_⟩
  · rw [payload_text, List.append_assoc, List.take_append_of_le_length hiv.ge, ← hiv, List.take_length]
  · rw [hdrop, List.take_append_of_le_length htag.ge, ← htag, List.take_length]
  · rw [show 28 = 12 + 16 from rfl, ← List.drop_drop, hdrop, List.drop_append_of_le_length htag.ge,
      ← htag, List.drop_length, List.nil_append]

theorem carries_text (hiv : m.iv.length = 12) (htag : (m.authTag P).length = 16) :
    Carries P (m.text P) m := by
  obtain ⟨hnonce, htext, hencrypted⟩ := payload_text_parts hiv htag
  exact ⟨hnonce, htext ▸ List.prefix_rfl, hencrypted⟩

/-! ## What is decrypted -/

theorem gcmDecrypt_eq_ok (h : P.gcm.Ideal (Made P ms)) (hp : gcmDecrypt P k iv t c = .ok p) :
    ∃ m ∈ ms, m.key = k ∧ m.iv = iv ∧ m.encrypted P = c ∧ t <+: m.authTag P ∧ m.plaintext = p := by
  unfold gcmDecrypt at hp
  split at hp
  · cases hp
  · rename_i plain hplain
    obtain rfl := Except.ok.inj hp
    obtain ⟨⟨m, hm, rfl, rfl, hc⟩, hcrypt, htag⟩ := h.of_decrypt hplain
    refine ⟨m, hm, rfl, rfl, hc, ?_, ?_⟩
    · rw [← hc] at htag
      exact htag
    · have hplain : plain = utf8 m.plaintext := by
        rw [← P.gcm.crypt_crypt (k := m.key) (n := m.iv) (i := 0) (a := plain), ← hcrypt, ← hc,
          Message.encrypted, P.gcm.crypt_crypt]
      rw [hplain, utf8Text_utf8]

theorem gcmDecrypt_message
    (haccepts : P.gcm.accepts m.key m.iv (m.encrypted P) (m.authTag P) = true) :
    gcmDecrypt P m.key m.iv (m.authTag P) (m.encrypted P) = .ok m.plaintext := by
  unfold gcmDecrypt Aead.decrypt
  rw [if_pos haccepts, Message.encrypted, P.gcm.crypt_crypt]
  exact congrArg Except.ok (utf8Text_utf8 P.lossy m.plaintext)

theorem tryKeys_eq_ok {ks : List Bytes} {last : Option String}
    (hp : tryKeys P iv t c ks last = .ok p) : ∃ k ∈ ks, gcmDecrypt P k iv t c = .ok p := by
  induction ks generalizing last with
  | nil => cases hp
  | cons k ks ih =>
    unfold tryKeys at hp
    split at hp
    · rename_i hk
      obtain rfl := Except.ok.inj hp
      exact ⟨k, List.mem_cons_self, hk⟩
    · obtain ⟨k', hk', hok⟩ := ih hp
      exact ⟨k', List.mem_cons_of_mem k hk', hok⟩

theorem tryKeys_of_mem {ks : List Bytes} {last : Option String} (hk : k ∈ ks)
    (hok : gcmDecrypt P k iv t c = .ok p)
    (hall : ∀ k' ∈ ks, ∀ p', gcmDecrypt P k' iv t c = .ok p' → p' = p) :
    tryKeys P iv t c ks last = .ok p := by
  induction ks generalizing last with
  | nil => exact absurd hk List.not_mem_nil
  | cons k' ks ih =>
    unfold tryKeys
    split
    · rename_i p' hp'
      rw [hall k' List.mem_cons_self p' hp']
    · rename_i e he
      obtain rfl | hk := List.mem_cons.mp hk
      · rw [hok] at he
        cases he
      · exact ih hk fun k'' hk'' ↦ hall k'' (List.mem_cons_of_mem k' hk'')

theorem decrypt_eq_ok (hp : decrypt P config text = .ok p) :
    ∃ k ∈ keysFor P config (decide ("v2:".toList <+: text.toList)),
      gcmDecrypt P k ((payload text).take 12) (((payload text).drop 12).take 16)
        ((payload text).drop 28) = .ok p := by
  unfold decrypt at hp
  split at hp
  · cases hp
  · split at hp
    · rename_i hv2
      split at hp
      · rename_i keyId blobB64 hsplit
        split at hp
        · cases hp
        · rename_i registry hregistry
          split at hp
          · cases hp
          · rename_i keyBuffer hlookup
            have hpayload : payload text = Base64.decode blobB64 := by
              unfold payload
              rw [if_pos hv2, hsplit]
              rfl
            refine ⟨keyBuffer, ?_, by rw [hpayload]; exact hp⟩
            rw [decide_eq_true hv2, keysFor, if_pos rfl, hregistry]
            exact List.mem_map.mpr ⟨(keyId, keyBuffer), Dict.mem_of_get hlookup, rfl⟩
      · cases hp
    · rename_i hlegacy
      obtain ⟨k, hk, hok⟩ := tryKeys_eq_ok hp
      refine ⟨k, ?_, ?_⟩
      · rw [decide_eq_false hlegacy, keysFor, if_neg Bool.false_ne_true]
        exact hk
      · unfold payload
        rw [if_neg hlegacy]
        exact hok

/-- **What is decrypted is the string of a message that the text carries.** -/
theorem decrypt_genuine (h : P.gcm.Ideal (Made P ms)) (hp : decrypt P config text = .ok p) :
    ∃ m ∈ ms, Carries P text m ∧ m.plaintext = p ∧
      m.key ∈ keysFor P config (decide ("v2:".toList <+: text.toList)) := by
  obtain ⟨k, hk, hok⟩ := decrypt_eq_ok hp
  obtain ⟨m, hm, rfl, hiv, hc, htag, hplain⟩ := gcmDecrypt_eq_ok h hok
  exact ⟨m, hm, ⟨hiv.symm, htag, hc.symm⟩, hplain, hk⟩

/-! ## The registry -/

theorem get_registry (h : Distinct P config) (hk : k ∈ keys P config) :
    ∃ registry, getKeyRegistry P config = .ok registry ∧
      Dict.get registry (fingerprint P k) = some k := by
  unfold Distinct at h
  unfold keys at h hk
  unfold getKeyRegistry
  cases hcurrent : getCurrentKeyBuffer P config with
  | error e =>
    rw [hcurrent] at hk
    exact absurd hk List.not_mem_nil
  | ok current =>
    rw [hcurrent] at h hk
    refine ⟨_, rfl, Dict.get_ofList (List.mem_map_of_mem hk) ?_⟩
    intro e he hfingerprint
    obtain ⟨k', hk', rfl⟩ := List.mem_map.mp he
    exact h k' hk' k hk hfingerprint

/-! ## What was encrypted is decrypted -/

theorem text_ne_empty (P : Primitives) (m : Message) (hiv : m.iv.length = 12) : m.text P ≠ "" := by
  intro h
  have hpayload := payload_text P m
  rw [h] at hpayload
  have hlength := congrArg List.length hpayload
  rw [List.length_append, List.length_append, hiv] at hlength
  have hempty : (payload "").length = 0 := by decide
  omega

theorem decrypt_versioned (h : Distinct P config) (hk : m.key ∈ keys P config)
    (hversioned : m.versioned = true) (hiv : m.iv.length = 12) (htag : (m.authTag P).length = 16)
    (haccepts : P.gcm.accepts m.key m.iv (m.encrypted P) (m.authTag P) = true) :
    decrypt P config (m.text P) = .ok m.plaintext := by
  obtain ⟨registry, hregistry, hlookup⟩ := get_registry h hk
  obtain ⟨hnonce, htext, hencrypted⟩ := payload_text_parts hiv htag
  have henvelope : m.text P = envelope P m.key m.iv m.plaintext := by
    rw [Message.text, if_pos hversioned]
  have hv2 : "v2:".toList <+: (m.text P).toList := henvelope ▸ startsWith_envelope P _ _ _
  have hsplit : (m.text P).toList.splitOn ':' =
      ["v2".toList, fingerprint P m.key, blob P m.key m.iv m.plaintext] := by
    rw [henvelope, splitOn_envelope]
  unfold payload at hnonce htext hencrypted
  rw [if_pos hv2, hsplit] at hnonce htext hencrypted
  unfold decrypt
  rw [if_neg (text_ne_empty P m hiv), if_pos hv2, hsplit]
  dsimp only at hnonce htext hencrypted ⊢
  rw [hregistry]
  dsimp only
  rw [hlookup]
  dsimp only
  have hpart : (["v2".toList, fingerprint P m.key, blob P m.key m.iv m.plaintext] : List (List Char)).getD 2
      [] = blob P m.key m.iv m.plaintext := rfl
  rw [hpart] at hnonce htext hencrypted
  rw [hnonce, htext, hencrypted]
  exact gcmDecrypt_message haccepts

theorem keys_subset_legacy : k ∈ keys P config → k ∈ getLegacyCandidateKeys P config := by
  unfold keys getLegacyCandidateKeys
  intro hk
  cases hcurrent : getCurrentKeyBuffer P config with
  | error e =>
    rw [hcurrent] at hk
    exact absurd hk List.not_mem_nil
  | ok current =>
    rw [hcurrent] at hk
    exact List.mem_append_left _ hk

theorem decrypt_legacy (h : P.gcm.Ideal (Made P ms)) (hm : m ∈ ms)
    (hapart : ∀ m' ∈ ms, m'.iv = m.iv → m' = m) (hk : m.key ∈ keys P config)
    (hversioned : m.versioned = false) (hiv : m.iv.length = 12) (htag : (m.authTag P).length = 16) :
    decrypt P config (m.text P) = .ok m.plaintext := by
  obtain ⟨hnonce, htext, hencrypted⟩ := payload_text_parts hiv htag
  have hblob : m.text P = .ofList (blob P m.key m.iv m.plaintext) := by
    rw [Message.text, if_neg (by simp [hversioned])]
  have hv2 : ¬ "v2:".toList <+: (m.text P).toList := hblob ▸ not_startsWith_blob P _ _ _
  unfold payload at hnonce htext hencrypted
  rw [if_neg hv2] at hnonce htext hencrypted
  unfold decrypt
  rw [if_neg (text_ne_empty P m hiv), if_neg hv2]
  dsimp only
  rw [hnonce, htext, hencrypted]
  have hmessage := gcmDecrypt_message (h.complete ⟨m, hm, rfl, rfl, rfl⟩)
  refine tryKeys_of_mem (keys_subset_legacy hk) hmessage fun k' _ p' hp' ↦ ?_
  obtain ⟨m', hm', -, hiv', -, -, hplain⟩ := gcmDecrypt_eq_ok h hp'
  rw [← hplain, hapart m' hm' hiv']

/-! ## Rotation keeps the secrets -/

structure Store.Sound (P : Primitives) (s : Store) : Prop where
  distinct : Distinct P s.config
  registered : ∀ m ∈ s.messages, m.key ∈ keys P s.config
  length_iv : ∀ m ∈ s.messages, m.iv.length = 12
  apart : ∀ m ∈ s.messages, ∀ m' ∈ s.messages, m'.iv = m.iv → m' = m
  /-- The text of a versioned message is what `encrypt` returned. -/
  written : ∀ m ∈ s.messages, m.versioned = true →
    ∃ config, encrypt P config m.plaintext m.iv = .ok (m.text P)

namespace Store

variable {s t : Store} {e : Event} {es : List Event}

theorem sound_empty (h : Distinct P config) : Sound P ⟨config, []⟩ where
  distinct := h
  registered _ hm := absurd hm List.not_mem_nil
  length_iv _ hm := absurd hm List.not_mem_nil
  apart _ hm := absurd hm List.not_mem_nil
  written _ hm := absurd hm List.not_mem_nil

theorem add_cases {plaintext : String} {versioned : Bool}
    (h : s.add P plaintext iv versioned = some t) :
    ∃ current, getCurrentKeyBuffer P s.config = .ok current ∧ iv.length = 12 ∧
      (∀ m ∈ s.messages, m.iv ≠ iv) ∧
      t = { s with messages := s.messages ++ [⟨current, iv, plaintext, versioned⟩] } := by
  unfold add at h
  split at h
  · cases h
  · rename_i current hcurrent
    split at h
    · rename_i hfresh
      exact ⟨current, hcurrent, hfresh.1, hfresh.2, (Option.some.inj h).symm⟩
    · cases h

theorem Sound.add (hs : s.Sound P) {plaintext : String} {versioned : Bool}
    (h : s.add P plaintext iv versioned = some t) : t.Sound P := by
  obtain ⟨current, hcurrent, hlength, hfresh, rfl⟩ := add_cases h
  constructor
  case distinct => exact hs.distinct
  case registered =>
    intro m hm
    obtain hm | hm := List.mem_append.mp hm
    · exact hs.registered m hm
    · rw [List.mem_singleton.mp hm]
      unfold keys
      rw [hcurrent]
      exact List.mem_cons_self
  case length_iv =>
    intro m hm
    obtain hm | hm := List.mem_append.mp hm
    · exact hs.length_iv m hm
    · rw [List.mem_singleton.mp hm]
      exact hlength
  case apart =>
    intro m hm m' hm' hiv
    obtain hm | hm := List.mem_append.mp hm
    · obtain hm' | hm' := List.mem_append.mp hm'
      · exact hs.apart m hm m' hm' hiv
      · rw [List.mem_singleton.mp hm'] at hiv
        exact absurd hiv.symm (hfresh m hm)
    · obtain hm' | hm' := List.mem_append.mp hm'
      · rw [List.mem_singleton.mp hm] at hiv
        exact absurd hiv (hfresh m' hm')
      · rw [List.mem_singleton.mp hm, List.mem_singleton.mp hm']
  case written =>
    intro m hm hversioned
    obtain hm | hm := List.mem_append.mp hm
    · exact hs.written m hm hversioned
    · refine ⟨s.config, ?_⟩
      rw [List.mem_singleton.mp hm] at hversioned ⊢
      unfold encrypt Message.text
      rw [hcurrent, if_pos hversioned]

theorem Sound.step (hs : s.Sound P) (h : step P s e = some t) : t.Sound P := by
  cases e with
  | rotate config =>
    rw [Crypto.step] at h
    split at h
    · rename_i hkeep
      obtain rfl := Option.some.inj h
      exact ⟨hkeep.2, fun m hm ↦ hkeep.1 m.key (hs.registered m hm), hs.length_iv, hs.apart,
        hs.written⟩
    · cases h
  | encrypt plaintext iv => exact hs.add h
  | encryptLegacy plaintext iv => exact hs.add h

theorem sound_run (h : Distinct P config) (hr : Run (step P) free ⟨config, []⟩ es s) : s.Sound P :=
  hr.invariant (sound_empty h) fun _ _ _ ht hstep _ ↦ ht.step hstep

end Store

theorem decrypt_altered (h : P.gcm.Ideal (Made P ms))
    (htag : ∀ m ∈ ms, (m.authTag P).length = 16) (hlength : 28 ≤ (payload text).length)
    (haltered : ∀ m ∈ ms, payload text ≠ payload (m.text P)) :
    ∃ e, decrypt P config text = .error e := by
  cases hp : decrypt P config text with
  | error e => exact ⟨e, rfl⟩
  | ok p =>
    obtain ⟨m, hm, ⟨hnonce, htext, hencrypted⟩, -, -⟩ := decrypt_genuine h hp
    have hwhole : ((payload text).drop 12).take 16 = m.authTag P := by
      refine htext.eq_of_length ?_
      rw [htag m hm, List.length_take, List.length_drop]
      omega
    have hparts : payload text = payload (m.text P) := by
      rw [payload_text, ← hnonce, ← hwhole, ← hencrypted, ← List.take_add, List.take_append_drop]
    exact absurd hparts (haltered m hm)

/-- **Secrets survive rotation.**  After any run the current configuration decrypts everything
that was encrypted to the original string.  Without its key a message is rejected.  So is a text
whose bytes have been altered, and whatever is decrypted is the string of a message whose bytes
the text still carries. -/
theorem run_secrets {es : List Event} {s : Store} (h₀ : Distinct P config)
    (htag : ∀ k n c, (P.gcm.tag k n c).length = 16)
    (hr : Run (step P) free ⟨config, []⟩ es s) (h : P.gcm.Ideal (Made P s.messages)) :
    (∀ m ∈ s.messages, decrypt P s.config (m.text P) = .ok m.plaintext ∧
      (m.versioned = true → ∃ config, encrypt P config m.plaintext m.iv = .ok (m.text P))) ∧
    (∀ m ∈ s.messages, ∀ config, m.key ∉ keysFor P config m.versioned →
      ∃ e, decrypt P config (m.text P) = .error e) ∧
    (∀ config text, 28 ≤ (payload text).length →
      (∀ m ∈ s.messages, payload text ≠ payload (m.text P)) →
      ∃ e, decrypt P config text = .error e) ∧
    ∀ config text p, decrypt P config text = .ok p →
      ∃ m ∈ s.messages, Carries P text m ∧ m.plaintext = p := by
  have hs := Store.sound_run h₀ hr
  refine ⟨fun m hm ↦ ⟨?_, hs.written m hm⟩, fun m hm config hk ↦ ?_,
    fun config text hlength haltered ↦ ?_, fun config text p hp ↦ ?_⟩
  · cases hversioned : m.versioned with
    | true =>
      exact decrypt_versioned hs.distinct (hs.registered m hm) hversioned (hs.length_iv m hm)
        (htag _ _ _) (h.complete ⟨m, hm, rfl, rfl, rfl⟩)
    | false =>
      exact decrypt_legacy h hm (hs.apart m hm) (hs.registered m hm) hversioned
        (hs.length_iv m hm) (htag _ _ _)
  · cases hp : decrypt P config (m.text P) with
    | error e => exact ⟨e, rfl⟩
    | ok p =>
      obtain ⟨m', hm', ⟨hnonce, -, -⟩, -, hk'⟩ := decrypt_genuine h hp
      obtain ⟨hnonce', -, -⟩ := carries_text (hs.length_iv m hm) (htag _ _ _)
      have heq : m' = m := hs.apart m hm m' hm' (hnonce.symm.trans hnonce')
      rw [heq, startsWith_text] at hk'
      exact absurd hk' hk
  · exact decrypt_altered h (fun m _ ↦ htag _ _ _) hlength haltered
  · obtain ⟨m, hm, hcarries, hplain, -⟩ := decrypt_genuine h hp
    exact ⟨m, hm, hcarries, hplain⟩

/-! ## Two messages, before and after a rotation -/

def listed (made : List (Bytes × Bytes × Bytes)) : Primitives where
  sha256 b := (b ++ List.replicate 32 0).take 32
  gcm := {
    keystream := fun _ _ _ ↦ 0
    tag := fun _ _ _ ↦ List.replicate 16 0
    accepts := fun k n c t ↦ decide ((k, n, c) ∈ made ∧ t = List.replicate 16 0) }
  lossy _ := ""

theorem ideal_listed {made : List (Bytes × Bytes × Bytes)} {made' : Bytes → Bytes → Bytes → Prop}
    (h : ∀ k n c, (k, n, c) ∈ made ↔ made' k n c) : (listed made).gcm.Ideal made' where
  complete hmade := decide_eq_true ⟨(h _ _ _).mpr hmade, rfl⟩
  genuine haccepts := by
    obtain ⟨hmem, rfl⟩ := of_decide_eq_true haccepts
    exact ⟨(h _ _ _).mp hmem, List.prefix_rfl⟩

def oldKey : Bytes := 97 :: List.replicate 31 0

def newKey : Bytes := 98 :: List.replicate 31 0

def first : Message := ⟨oldKey, List.replicate 12 0, "", true⟩

def second : Message := ⟨newKey, List.replicate 12 1, "s", false⟩

def rotated : Store := ⟨{ key := "b", previousKeys := ["a"] }, [first, second]⟩

def twoMade : Primitives := listed [(oldKey, first.iv, []), (newKey, second.iv, [115])]

theorem run_rotated : Run (step twoMade) free ⟨{ key := "a" }, []⟩
    [.encrypt "" first.iv, .rotate rotated.config, .encryptLegacy "s" second.iv] rotated := by
  have h₁ : step twoMade ⟨{ key := "a" }, []⟩ (.encrypt "" first.iv) =
      some ⟨{ key := "a" }, [first]⟩ := by decide +kernel
  have h₂ : step twoMade ⟨{ key := "a" }, [first]⟩ (.rotate rotated.config) =
      some ⟨rotated.config, [first]⟩ := by decide +kernel
  have h₃ : step twoMade ⟨rotated.config, [first]⟩ (.encryptLegacy "s" second.iv) =
      some rotated := by decide +kernel
  exact ((Run.nil.snoc h₁ trivial).snoc h₂ trivial).snoc h₃ trivial

theorem ideal_twoMade : twoMade.gcm.Ideal (Made twoMade rotated.messages) := by
  refine ideal_listed fun k n c ↦ ?_
  have hfirst : first.encrypted twoMade = [] := by decide +kernel
  have hsecond : second.encrypted twoMade = [115] := by decide +kernel
  unfold Made rotated
  simp only [List.mem_cons, List.not_mem_nil, or_false, exists_eq_or_imp, exists_eq_left, hfirst,
    hsecond, Prod.mk.injEq]
  exact or_congr (and_congr eq_comm (and_congr eq_comm eq_comm))
    (and_congr eq_comm (and_congr eq_comm eq_comm))

theorem run_secrets_rotated :
    decrypt twoMade rotated.config (first.text twoMade) = .ok "" ∧
      decrypt twoMade rotated.config (second.text twoMade) = .ok "s" ∧
      ∃ e, decrypt twoMade { key := "c" } (first.text twoMade) = .error e := by
  have hdistinct : Distinct twoMade { key := "a" } := by decide +kernel
  obtain ⟨hread, hkey, -, -⟩ := run_secrets hdistinct (fun _ _ _ ↦ List.length_replicate) run_rotated
    ideal_twoMade
  refine ⟨(hread first (by decide)).1, (hread second (by decide)).1, ?_⟩
  exact hkey first (by decide) { key := "c" } (by decide +kernel)

/-- The last digit before the padding carries bits that are dropped. -/
theorem decrypt_last_digit :
    Distinct twoMade { key := "a" } ∧
      (∀ k n c, (twoMade.gcm.tag k n c).length = 16) ∧
      Run (step twoMade) free ⟨{ key := "a" }, []⟩
        [.encrypt "" first.iv, .rotate rotated.config, .encryptLegacy "s" second.iv] rotated ∧
      twoMade.gcm.Ideal (Made twoMade rotated.messages) ∧
      first ∈ rotated.messages ∧
      first.text twoMade = "v2:61000000:AAAAAAAAAAAAAAAAAAAAAAAAAAAAAAAAAAAAAA==" ∧
      decrypt twoMade rotated.config "v2:61000000:AAAAAAAAAAAAAAAAAAAAAAAAAAAAAAAAAAAAAB==" =
        .ok first.plaintext := by
  refine ⟨by decide +kernel, fun _ _ _ ↦ List.length_replicate, run_rotated, ideal_twoMade, by decide,
    by decide +kernel, by decide +kernel⟩

end Shellius.Crypto
