import Shellius.Lib.OneTime
import Shellius.Lib.Pool
import Shellius.Auth.SecondFactor

/-!
# Backup codes and e-mailed codes

`mfaService.verifyBackupCode`, `regenerateBackupCodes`, `verifyEmailOtp` and
`dispatchEmailOtp` of one user, each database step on its own.

The backup codes are one column of the user's row.  `verifyBackupCode` is handed
the row as its caller read it, takes the code out of the list in that copy and
writes the copy back; an e-mailed code is a row of its own, found unused and
marked as used by its key.  In either case somebody else may have written in
between, and the write does not look: such a write is *overtaken*.

Codes are told apart as the database tells them apart: a backup code by its
hash, and an e-mailed code by the key of its row, since six digits may well come
up again.  A new set of backup codes is drawn at random out of 32¹² each, and
shares no code with the sets before it.
-/

namespace Shellius.OneTimeCodes

open Lib

/-! ## Codes and their hashes -/

/-- The letters and digits that a character leaves behind in `toUpperCase`.  A few
letters outside ASCII have capitals inside it. -/
def upperAlnum (c : Char) : List Char :=
  match c.toNat with
  | 0xDF => ['S', 'S']
  | 0x131 => ['I']
  | 0x149 => ['N']
  | 0x17F => ['S']
  | 0x1F0 => ['J']
  | 0x1E96 => ['H']
  | 0x1E97 => ['T']
  | 0x1E98 => ['W']
  | 0x1E99 => ['Y']
  | 0x1E9A => ['A']
  | 0xFB00 => ['F', 'F']
  | 0xFB01 => ['F', 'I']
  | 0xFB02 => ['F', 'L']
  | 0xFB03 => ['F', 'F', 'I']
  | 0xFB04 => ['F', 'F', 'L']
  | 0xFB05 | 0xFB06 => ['S', 'T']
  | _ => if 'A' ≤ c.toUpper ∧ c.toUpper ≤ 'Z' ∨ c.isDigit then [c.toUpper] else []

def normalizeBackupCode (code : String) : String := .ofList (code.toList.flatMap upperAlnum)

section

variable (crypto : Crypto)

def hashBackupCode (code : String) : String := crypto.sha256 (normalizeBackupCode code)

end

/-! ## The program -/

inductive Secret
  | backup (hash : String)
  | email (tokenId : Id)
deriving DecidableEq

/-- The codes of the user and the clock, and what has become of each code. -/
structure Store where
  now : Millis
  mfaBackupCodes : List String := []
  userTokens : List UserToken := []
  codeSet : List String := []
  drawnCodes : List String := []
  drawnIds : List Id := []
  /-- The codes that were accepted, and the sets that were replaced. -/
  log : List (Use Secret) := []

inductive Operation
  | verifyBackupCode (code : String)
  | regenerateBackupCodes (codes : List String)
  | verifyEmailOtp (code : String)
  | dispatchEmailOtp (code : String)

inductive Call
  | /-- The caller of `verifyBackupCode` reads the user, and the code is looked up
    among the hashes. -/
    readUser (code : String)
  | /-- It writes the hashes it read without the one of the code, and accepts. -/
    writeBackupCodes (hash : String) (codes : List String)
  | /-- `regenerateBackupCodes` writes the hashes of the new codes. -/
    regenerate (codes : List String)
  | /-- `verifyEmailOtp` finds an unused row for the code. -/
    findEmailOtp (code : String)
  | useEmailOtp (tokenId : Id)
  | /-- `dispatchEmailOtp` deletes the codes of the user. -/
    deleteEmailOtps (code : String)
  | createEmailOtp (code : String)
  | /-- The mail was not delivered, and the codes of the user are deleted. -/
    deleteUndelivered

/-- What a step gets from outside: the key of a row it creates, and whether the
mail was delivered. -/
structure Outside where
  id : Id := ""
  delivered : Bool := true

def start : Operation → Call
  | .verifyBackupCode code => .readUser code
  | .regenerateBackupCodes codes => .regenerate codes
  | .verifyEmailOtp code => .findEmailOtp code
  | .dispatchEmailOtp code => .deleteEmailOtps code

section

variable (crypto : Crypto) (userId : Id) (s : Store)

def hashEmailOtp (code : String) : String := crypto.sha256 (userId ++ ":" ++ code)

def withoutEmailOtps : List UserToken :=
  s.userTokens.filter fun t ↦ ¬ (t.userId = userId ∧ t.type = emailOtpType)

def emailOtpRow (id : Id) (code : String) : UserToken where
  id
  userId
  type := emailOtpType
  tokenHash := hashEmailOtp crypto userId code
  expiresAt := s.now + emailOtpTtlMs

/-- The new row is refused: `tokenHash` is unique. -/
def Clashes (code : String) : Prop :=
  ∃ t ∈ s.userTokens, t.tokenHash = hashEmailOtp crypto userId code

instance (code : String) : Decidable (Clashes crypto userId s code) :=
  inferInstanceAs (Decidable (∃ t ∈ s.userTokens, _))

/-- The row is there. -/
def HasToken (tokenId : Id) : Prop := ∃ t ∈ s.userTokens, t.id = tokenId

instance (tokenId : Id) : Decidable (HasToken s tokenId) :=
  inferInstanceAs (Decidable (∃ t ∈ s.userTokens, _))

/-- What a step draws is new: the key of the row it creates, and the codes of the
set it writes. -/
def Fresh (out : Outside) : Call → Prop
  | .createEmailOtp _ => out.id ∉ s.drawnIds
  | .regenerate codes => ∀ code ∈ codes, hashBackupCode crypto code ∉ s.drawnCodes
  | _ => True

instance (out : Outside) (k : Call) : Decidable (Fresh crypto s out k) := by
  cases k <;> unfold Fresh <;> infer_instance

def effect (out : Outside) : Call → Store
  | .writeBackupCodes hash codes =>
    { s with
      mfaBackupCodes := codes.filter fun c ↦ c ≠ hash
      log := .redeemed (.backup hash) :: s.log }
  | .regenerate codes =>
    let hashes := codes.map (hashBackupCode crypto)
    { s with
      mfaBackupCodes := hashes
      codeSet := hashes
      drawnCodes := hashes ++ s.drawnCodes
      log := .withdrawn (s.codeSet.map .backup) :: s.log }
  | .useEmailOtp tokenId =>
    -- the update of a row that is gone throws
    if HasToken s tokenId then
      { s with
        userTokens := Shellius.useEmailOtp s.now s.userTokens tokenId
        log := .redeemed (.email tokenId) :: s.log }
    else s
  | .deleteEmailOtps _ | .deleteUndelivered =>
    { s with userTokens := withoutEmailOtps userId s }
  | .createEmailOtp code =>
    if Clashes crypto userId s code then s
    else
      { s with
        userTokens := s.userTokens ++ [emailOtpRow crypto userId s out.id code]
        drawnIds := out.id :: s.drawnIds }
  | .readUser _ | .findEmailOtp _ => s

def next (out : Outside) : Call → Option Call
  | .readUser code =>
    let hash := hashBackupCode crypto code
    if hash ∈ s.mfaBackupCodes then some (.writeBackupCodes hash s.mfaBackupCodes) else none
  | .findEmailOtp code =>
    match Shellius.findEmailOtp crypto s.userTokens userId code with
    | none => none
    | some rec => if rec.expiresAt < s.now then none else some (.useEmailOtp rec.id)
  | .deleteEmailOtps code => some (.createEmailOtp code)
  | .createEmailOtp code =>
    if Clashes crypto userId s code then none
    else if out.delivered then none
    else some .deleteUndelivered
  | .writeBackupCodes .. | .regenerate _ | .useEmailOtp _ | .deleteUndelivered => none

def program : Program Store Operation Call Outside Millis where
  start
  act _ s k out :=
    if Fresh crypto s out k then
      some (effect crypto userId s out k, next crypto userId s out k)
    else none
  env s now := if s.now ≤ now then some { s with now } else none

end

/-- The write finds what its call read: the codes it takes one out of, or the row
it marks still unused. -/
def timely (s : Store) : Call → Bool
  | .writeBackupCodes _ codes => s.mfaBackupCodes = codes
  | .useEmailOtp tokenId => s.userTokens.all fun t ↦ t.id = tokenId → t.usedAt = none
  | _ => true

/-- The step is not an overtaken write. -/
def undisturbed (p : Pool Store Call) : Event Operation Outside Millis → Bool
  | .act i _ => (p.calls i).all (timely p.store)
  | _ => true

/-- Runs in which no write is overtaken. -/
def Undisturbed (p : Pool Store Call) (e : Event Operation Outside Millis) (_ : Pool Store Call) :
    Prop := undisturbed p e = true

/-! ## The invariant -/

section

variable {crypto : Crypto} {userId : Id} {s : Store} {out : Outside} {k : Call}

structure Inv (s : Store) : Prop where
  stored : ∀ hash ∈ s.mfaBackupCodes, hash ∈ s.drawnCodes ∧ ¬ Spent s.log (.backup hash)
  codeSet : ∀ hash ∈ s.codeSet, hash ∈ s.drawnCodes
  /-- So was every backup code that is spent. -/
  drawnCodes : ∀ hash, Spent s.log (.backup hash) → hash ∈ s.drawnCodes
  /-- The keys of the tokens are in use, and an e-mailed code that is unused works. -/
  unused : ∀ t ∈ s.userTokens, t.id ∈ s.drawnIds ∧
    (t.usedAt = none → ¬ Spent s.log (.email t.id))
  drawnIds : ∀ id, Spent s.log (.email id) → id ∈ s.drawnIds
  oneTime : OneTime s.log

/-- A call takes a code out of the codes it read only if it is among them. -/
def Assert (_ : Store) (_ : Nat) : Call → Prop
  | .writeBackupCodes hash codes => hash ∈ codes
  | _ => True

theorem assert_next {l : Call} {t : Store} {i : Nat} (h : next crypto userId s out k = some l) :
    Assert t i l := by
  cases k with
  | readUser code =>
    simp only [next] at h
    split at h
    · rename_i hmem
      obtain rfl := Option.some.inj h
      exact hmem
    · cases h
  | findEmailOtp code =>
    simp only [next] at h
    split at h
    · cases h
    · split at h
      · cases h
      · obtain rfl := Option.some.inj h
        trivial
  | createEmailOtp code =>
    simp only [next] at h
    split at h
    · cases h
    · split at h
      · cases h
      · obtain rfl := Option.some.inj h
        trivial
  | deleteEmailOtps code =>
    obtain rfl := Option.some.inj h
    trivial
  | _ => cases h

theorem Inv.withoutEmailOtps (h : Inv s) :
    Inv { s with userTokens := withoutEmailOtps userId s } :=
  { h with unused := fun t ht ↦ h.unused t (List.mem_of_mem_filter ht) }

theorem Inv.writeBackupCodes (h : Inv s) {hash : String} (hmem : hash ∈ s.mfaBackupCodes) :
    Inv { s with
      mfaBackupCodes := s.mfaBackupCodes.filter fun c ↦ c ≠ hash
      log := .redeemed (.backup hash) :: s.log } where
  stored c hc := by
    obtain ⟨hc, hne⟩ := List.mem_filter.mp hc
    refine ⟨(h.stored c hc).1, fun hs ↦ ?_⟩
    rcases spent_redeemed.mp hs with he | hs
    · exact of_decide_eq_true hne (Secret.backup.inj he).symm
    · exact (h.stored c hc).2 hs
  codeSet := h.codeSet
  drawnCodes c hc := by
    rcases spent_redeemed.mp hc with he | hc
    · exact Secret.backup.inj he ▸ (h.stored hash hmem).1
    · exact h.drawnCodes c hc
  unused t ht := by
    refine ⟨(h.unused t ht).1, fun hn hs ↦ ?_⟩
    rcases spent_redeemed.mp hs with he | hs
    · cases he
    · exact (h.unused t ht).2 hn hs
  drawnIds id hs := by
    rcases spent_redeemed.mp hs with he | hs
    · cases he
    · exact h.drawnIds id hs
  oneTime := oneTime_redeemed.mpr ⟨(h.stored hash hmem).2, h.oneTime⟩

theorem spent_regenerate {hash : String} (h : Inv s)
    (hs : Spent (.withdrawn (s.codeSet.map .backup) :: s.log) (Secret.backup hash)) :
    hash ∈ s.drawnCodes := by
  rcases spent_withdrawn.mp hs with hs | hs
  · obtain ⟨d, hd, he⟩ := List.mem_map.mp hs
    exact Secret.backup.inj he ▸ h.codeSet d hd
  · exact h.drawnCodes hash hs

theorem spent_email_regenerate {id : Id}
    (hs : Spent (.withdrawn (s.codeSet.map .backup) :: s.log) (Secret.email id)) :
    Spent s.log (.email id) := by
  rcases spent_withdrawn.mp hs with hs | hs
  · obtain ⟨d, -, he⟩ := List.mem_map.mp hs
    cases he
  · exact hs

theorem Inv.regenerate (h : Inv s) {hashes : List String}
    (hnew : ∀ hash ∈ hashes, hash ∉ s.drawnCodes) :
    Inv { s with
      mfaBackupCodes := hashes
      codeSet := hashes
      drawnCodes := hashes ++ s.drawnCodes
      log := .withdrawn (s.codeSet.map .backup) :: s.log } where
  stored c hc := ⟨List.mem_append_left _ hc, fun hs ↦ hnew c hc (spent_regenerate h hs)⟩
  codeSet _ hc := List.mem_append_left _ hc
  drawnCodes _ hs := List.mem_append_right _ (spent_regenerate h hs)
  unused t ht := ⟨(h.unused t ht).1, fun hn hs ↦ (h.unused t ht).2 hn (spent_email_regenerate hs)⟩
  drawnIds id hs := h.drawnIds id (spent_email_regenerate hs)
  oneTime := oneTime_withdrawn.mpr h.oneTime

theorem Inv.useEmailOtp (h : Inv s) {tokenId : Id} (hrow : HasToken s tokenId)
    (hunused : ∀ t ∈ s.userTokens, t.id = tokenId → t.usedAt = none) :
    Inv { s with
      userTokens := Shellius.useEmailOtp s.now s.userTokens tokenId
      log := .redeemed (.email tokenId) :: s.log } := by
  obtain ⟨rec, hrec, rfl⟩ := hrow
  exact
    { codeSet := h.codeSet
      stored := fun c hc ↦ by
        refine ⟨(h.stored c hc).1, fun hs ↦ ?_⟩
        rcases spent_redeemed.mp hs with he | hs
        · cases he
        · exact (h.stored c hc).2 hs
      drawnCodes := fun c hs ↦ by
        rcases spent_redeemed.mp hs with he | hs
        · cases he
        · exact h.drawnCodes c hs
      unused := fun t ht ↦ by
        obtain ⟨t₀, ht₀, rfl⟩ := List.mem_map.mp ht
        by_cases he : t₀.id = rec.id
        · rw [if_pos he]
          exact ⟨(h.unused t₀ ht₀).1, fun hn ↦ by cases hn⟩
        · rw [if_neg he]
          refine ⟨(h.unused t₀ ht₀).1, fun hn hs ↦ ?_⟩
          rcases spent_redeemed.mp hs with he' | hs
          · exact he (Secret.email.inj he').symm
          · exact (h.unused t₀ ht₀).2 hn hs
      drawnIds := fun id hs ↦ by
        rcases spent_redeemed.mp hs with he | hs
        · exact Secret.email.inj he ▸ (h.unused rec hrec).1
        · exact h.drawnIds id hs
      oneTime := oneTime_redeemed.mpr
        ⟨(h.unused rec hrec).2 (hunused rec hrec rfl), h.oneTime⟩ }

theorem Inv.createEmailOtp (h : Inv s) {id : Id} {code : String} (hid : id ∉ s.drawnIds) :
    Inv { s with
      userTokens := s.userTokens ++ [emailOtpRow crypto userId s id code]
      drawnIds := id :: s.drawnIds } where
  stored := h.stored
  codeSet := h.codeSet
  drawnCodes := h.drawnCodes
  unused t ht := by
    rcases List.mem_append.mp ht with ht | ht
    · exact ⟨List.mem_cons_of_mem _ (h.unused t ht).1, (h.unused t ht).2⟩
    · obtain rfl := List.mem_singleton.mp ht
      exact ⟨List.mem_cons_self, fun _ hs ↦ hid (h.drawnIds id hs)⟩
  drawnIds j hs := List.mem_cons_of_mem _ (h.drawnIds j hs)
  oneTime := h.oneTime

theorem Inv.effect (h : Inv s) {i : Nat} (ha : Assert s i k) (hf : Fresh crypto s out k)
    (hok : timely s k = true) : Inv (effect crypto userId s out k) := by
  cases k with
  | writeBackupCodes hash codes =>
    obtain rfl : s.mfaBackupCodes = codes := of_decide_eq_true hok
    exact h.writeBackupCodes ha
  | regenerate codes =>
    refine h.regenerate fun hash hmem ↦ ?_
    obtain ⟨code, hcode, rfl⟩ := List.mem_map.mp hmem
    exact hf code hcode
  | useEmailOtp tokenId =>
    simp only [OneTimeCodes.effect]
    split
    · rename_i hrow
      refine h.useEmailOtp hrow fun t ht he ↦ ?_
      have hall := List.all_eq_true.mp hok t ht
      exact of_decide_eq_true hall he
    · exact h
  | createEmailOtp code =>
    simp only [OneTimeCodes.effect]
    split
    · exact h
    · exact h.createEmailOtp hf
  | deleteEmailOtps | deleteUndelivered => exact h.withoutEmailOtps
  | readUser | findEmailOtp => exact h

theorem program_keeps : (program crypto userId).Keeps Undisturbed Inv Assert where
  spawn s i a _ := by cases a <;> trivial
  act p i k out s' k' hp hk hact hok := by
    simp only [program] at hact
    split at hact
    · rename_i hf
      obtain ⟨rfl, rfl⟩ := Prod.mk.inj (Option.some.inj hact)
      have hok : timely p.store k = true := by simpa [Undisturbed, undisturbed, hk] using hok
      exact ⟨hp.1.effect (hp.2 i k hk) hf hok, fun l hl ↦ assert_next hl,
        fun j l _ hj ↦ hp.2 j l hj⟩
    · cases hact
  abort p i k hp _ := ⟨hp.1, fun j l _ hj ↦ hp.2 j l hj⟩
  env s now s' h henv := by
    simp only [program] at henv
    split at henv
    · obtain rfl := Option.some.inj henv
      exact ⟨{ h with }, fun _ _ hj ↦ hj⟩
    · cases henv

end

/-! ## Every code works once -/

/-- What is promised of the codes: each is accepted by one call at most, and none
is accepted after it was accepted or its set was replaced. -/
structure OnceOnly (log : List (Use Secret)) : Prop where
  atMostOnce : ∀ code, log.count (.redeemed code) ≤ 1
  neverAgain : OneTime log

/-- The codes before the first call: those stored are of the set handed out last,
and everything there is has been drawn. -/
structure Initial (s : Store) : Prop where
  stored : ∀ hash ∈ s.mfaBackupCodes, hash ∈ s.codeSet
  codeSet : ∀ hash ∈ s.codeSet, hash ∈ s.drawnCodes
  drawnIds : ∀ t ∈ s.userTokens, t.id ∈ s.drawnIds
  log : s.log = []

theorem Initial.inv {s : Store} (h : Initial s) : Inv s where
  stored hash hmem := ⟨h.codeSet hash (h.stored hash hmem), by simp [h.log]⟩
  codeSet := h.codeSet
  drawnCodes hash hs := by simp [h.log] at hs
  unused t ht := ⟨h.drawnIds t ht, by simp [h.log]⟩
  drawnIds id hs := by simp [h.log] at hs
  oneTime := by simp [h.log]

/-- **One-time codes work once in every run in which no write is overtaken.** -/
theorem run_onceOnly {crypto : Crypto} {userId : Id} {s : Store} {p : Pool Store Call}
    {es : List (Event Operation Outside Millis)} (h₀ : Initial s)
    (hr : Run (program crypto userId).step Undisturbed (Program.idle Call s) es p) :
    OnceOnly p.store.log := by
  have hp := program_keeps.run (Program.holds_idle h₀.inv) hr
  exact ⟨fun _ ↦ hp.1.oneTime.count_le_one, hp.1.oneTime⟩

def plain : Crypto := ⟨fun _ _ _ ↦ false, id⟩

def oneCode : Store where
  now := 0
  mfaBackupCodes := ["ABCDEFGHJKLM"]
  codeSet := ["ABCDEFGHJKLM"]
  drawnCodes := ["ABCDEFGHJKLM"]

theorem oneCode_initial : Initial oneCode :=
  ⟨by simp [oneCode], by simp [oneCode], by simp [oneCode], rfl⟩

def anaSignsIn : List (Event Operation Outside Millis) :=
  [.spawn 0 (.verifyBackupCode "abcd-efgh-jklm"), .act 0 {}, .act 0 {},
    .spawn 0 (.regenerateBackupCodes ["NPQR-STUV-WXYZ"]), .act 0 {},
    .spawn 0 (.dispatchEmailOtp "123456"), .act 0 {}, .act 0 { id := "t1" },
    .env 1000, .spawn 0 (.verifyEmailOtp "123456"), .act 0 {}, .act 0 {}]

theorem run_onceOnly_ana : Initial oneCode ∧ ∃ p : Pool Store Call,
    OnceOnly p.store.log ∧ p.store.log =
      [.redeemed (.email "t1"), .withdrawn [.backup "ABCDEFGHJKLM"],
        .redeemed (.backup "ABCDEFGHJKLM")] := by
  have h : execIf (program plain "ana").step undisturbed (Program.idle Call oneCode) anaSignsIn =
      some _ := rfl
  exact ⟨oneCode_initial, _, run_onceOnly oneCode_initial (run_of_execIf h), rfl⟩

def usedTwice : List (Event Operation Outside Millis) :=
  [.spawn 0 (.verifyBackupCode "abcd-efgh-jklm"), .spawn 1 (.verifyBackupCode "ABCDEFGHJKLM"),
    .act 0 {}, .act 1 {}, .act 0 {}, .act 1 {}]

theorem backup_code_accepted_twice : Initial oneCode ∧ ∃ p : Pool Store Call,
    Run (program plain "ana").step free (Program.idle Call oneCode) usedTwice p ∧
      p.store.log.count (.redeemed (.backup "ABCDEFGHJKLM")) = 2 ∧ ¬ OnceOnly p.store.log := by
  have h : exec (program plain "ana").step (Program.idle Call oneCode) usedTwice = some _ := rfl
  refine ⟨oneCode_initial, _, run_of_exec h, rfl, fun hc ↦ ?_⟩
  exact absurd (hc.atMostOnce (.backup "ABCDEFGHJKLM")) (by decide)

end Shellius.OneTimeCodes
