import Shellius.Lib.Pool
import Shellius.Schema
import Shellius.Text

/-!
# Host keys

A server's host key is trusted on first use: `checkAndPinHostKey` pins the fingerprint of the
first connection that gets through, and refuses a later one with another key.  It runs once a
connection has been made.  What is checked before a secret is sent is the fingerprint that the
caller of `connectSsh` expects, and for a saved server `resolveServerAuth` expects none.

`testCredential` connects the same way and pins as well, and never refuses.

Connections run side by side, and each goes by the row of the server that it has read.
-/

namespace Shellius.HostKeys

open Lib

/-! ## Rows -/

inductive AuthType where
  | password | key | keyPassword
deriving DecidableEq

/-- `SshKey`, with its secrets. -/
structure SshKey where
  privateKeyEncrypted : String
  passphraseEncrypted : Option String := none
  certificate : Option String := none

/-- `Credential`, with its secrets and its key. -/
structure StoredCredential where
  username : String
  authType : AuthType
  passwordEncrypted : Option String := none
  sshKey : Option SshKey := none

/-- A host key as `describeHostKey` returns it; the fingerprint begins with `SHA256:`. -/
structure HostKey where
  fingerprint : String
  algorithm : String
  nonempty : fingerprint ≠ "" := by decide

/-- `Server`, with its address, its identity and its pinned key. -/
structure ServerRow where
  id : Id
  hostname : String := ""
  ipAddress : Option String := none
  port : Option Nat := none
  authMode : ServerAuthMode := .credential
  credential : Option StoredCredential := none
  hostKeyFingerprint : Option String := none
  hostKeyAlgorithm : Option String := none
  hostKeyPinnedAt : Option Millis := none

def ServerRow.pinned (server : ServerRow) : Option String := truthy server.hostKeyFingerprint

/-! ## Connecting -/

/-- What `resolveCredentialAuth` returns. -/
structure AuthOpts where
  username : String
  password : Option String := none
  privateKey : Option String := none
  passphrase : Option String := none
  certificate : Option String := none

/-- The options of `connectSsh`. -/
structure ConnectOpts extends AuthOpts where
  host : String
  port : Nat := 22
  expectedFingerprint : Option String := none

section

variable (decrypt : String → String)

def resolveCredentialAuth (credential : StoredCredential) : AuthOpts :=
  let key := if credential.authType = .password then none else credential.sshKey
  { username := credential.username
    password :=
      if credential.authType = .key then none
      else (truthy credential.passwordEncrypted).map decrypt
    privateKey := key.map fun k ↦ decrypt k.privateKeyEncrypted
    passphrase := key.bind fun k ↦ (truthy k.passphraseEncrypted).map decrypt
    certificate := key.bind fun k ↦ truthy k.certificate }

def ServerRow.host (server : ServerRow) : String := (truthy server.ipAddress).getD server.hostname

/-- `server.port || 22` -/
def ServerRow.portOr22 (server : ServerRow) : Nat :=
  if server.port.getD 0 = 0 then 22 else server.port.getD 0

/-- `resolveServerAuth`, of a row that was read with its credential. -/
def resolveServerAuth (server : ServerRow) : Except ApiError ConnectOpts :=
  if server.authMode ≠ .credential then
    .error ⟨400, "Server is not in credential auth mode", none⟩
  else match server.credential with
    | none => .error ⟨400, "This server has no identity (Credential) configured", none⟩
    | some credential =>
      let opts := resolveCredentialAuth decrypt credential
      if truthy opts.password = none ∧ truthy opts.privateKey = none then
        .error ⟨400, "This identity has no usable password or key configured", none⟩
      else .ok { opts with host := server.host, port := server.portOr22 }

end

/-- The checks of `connectSsh`. -/
def checkOpts (opts : ConnectOpts) : Except ApiError Unit := do
  if opts.host = "" then throw ⟨400, "host is required", none⟩
  if opts.username = "" then throw ⟨400, "username is required", none⟩
  if truthy opts.password = none ∧ truthy opts.privateKey = none then
    throw ⟨400, "Either a password or a private key is required", none⟩
  if truthy opts.certificate ≠ none ∧ truthy opts.privateKey = none then
    throw ⟨400, "certificate requires a matching privateKey", none⟩

/-- What `hostVerifier` answers. -/
def verifies (opts : ConnectOpts) (hostKey : HostKey) : Bool :=
  (truthy opts.expectedFingerprint).all fun expected ↦ expected = hostKey.fingerprint

def ServerRow.pin (server : ServerRow) (hostKey : HostKey) (now : Millis) : ServerRow :=
  { server with
    hostKeyFingerprint := some hostKey.fingerprint
    hostKeyAlgorithm := some hostKey.algorithm
    hostKeyPinnedAt := some now }

def ServerRow.resetHostKey (server : ServerRow) : ServerRow :=
  { server with hostKeyFingerprint := none, hostKeyAlgorithm := none, hostKeyPinnedAt := none }

/-- The error of `checkAndPinHostKey`. -/
def hostKeyMismatch (server : ServerRow) (expected actual : String) : ApiError :=
  ⟨409, "Host key mismatch for " ++ (if server.hostname = "" then server.id else server.hostname) ++
    ": expected " ++ expected ++ ", got " ++ actual ++ ". " ++
    "The host key changed — this could indicate a MITM attack or a reinstalled host. " ++
    "An admin must reset the pinned key to proceed.", some "HOST_KEY_MISMATCH"⟩

/-- What `checkAndPinHostKey` decides: to pin the key, or that it matches. -/
def checkHostKey (server : ServerRow) (hostKey : HostKey) : Except ApiError Bool :=
  match server.pinned with
  | none => .ok true
  | some expected =>
    if expected = hostKey.fingerprint then .ok false
    else .error (hostKeyMismatch server expected hostKey.fingerprint)

/-! ## The program -/

/-- What has happened on a connection. -/
inductive Note
  | /-- A password or a key was offered to the host; `pinned` is what was pinned when the
    connection was opened. -/
    attempted (pinned : Option String) (presented : String)
  | /-- The connection was handed to its caller; `pinned` is what was pinned when it was opened,
    or else is pinned now. -/
    completed (pinned : Option String) (presented : String)

/-- The row of the server, the clock, and what has happened. -/
structure Store where
  server : ServerRow
  now : Millis
  log : List Note := []

inductive Operation
  | /-- A connection to the saved server, with `resolveServerAuth` and `checkAndPinHostKey`, and
    the fingerprint that the caller adds to the options; none does for a saved server. -/
    connect (expectedFingerprint : Option String)
  | testCredential (credential : StoredCredential)

inductive Call
  | load (op : Operation)
  | /-- `connectSsh` opens the connection. -/
    connect (op : Operation) (server : ServerRow) (opts : ConnectOpts)
  | /-- `hostVerifier` is handed the key of the host; `started` was pinned when the connection
    was opened. -/
    handshake (op : Operation) (server : ServerRow) (opts : ConnectOpts) (started : Option String)
  | auth (op : Operation) (server : ServerRow) (started : Option String) (hostKey : HostKey)
  | pin (started : Option String) (hostKey : HostKey)

/-- What a step gets from outside: the key that the host presents, if it can be parsed, and
whether the secrets are accepted. -/
structure Outside where
  hostKey : Option HostKey := none
  accepted : Bool := false

inductive Change
  | resetHostKey
  | edit (server : ServerRow)
  | time (now : Millis)

section

variable (decrypt : String → String)

def optsFor (server : ServerRow) : Operation → Except ApiError ConnectOpts
  | .connect expectedFingerprint => do
      let opts ← resolveServerAuth decrypt server
      pure { opts with expectedFingerprint }
  | .testCredential credential =>
    .ok { resolveCredentialAuth decrypt credential with host := server.host, port := server.portOr22 }

/-- What comes of a connection whose secrets were accepted: the key is pinned, the connection is
handed over, or it is refused. -/
def settle (op : Operation) (server : ServerRow) (hostKey : HostKey) : Except ApiError Bool :=
  match op with
  | .connect _ => checkHostKey server hostKey
  | .testCredential _ => .ok server.pinned.isNone

/-- What a step notes, the newest first. -/
def notes (s : Store) (out : Outside) : Call → List Note
  | .auth op server started hostKey =>
    (if out.accepted ∧ settle op server hostKey = .ok false then
      [.completed (started.or s.server.pinned) hostKey.fingerprint] else []) ++
      [.attempted started hostKey.fingerprint]
  | .pin started hostKey =>
    [.completed (started.or (s.server.pin hostKey s.now).pinned) hostKey.fingerprint]
  | .load _ | .connect .. | .handshake .. => []

def effect (s : Store) (out : Outside) (k : Call) : Store :=
  { s with
    server := match k with
      | .pin _ hostKey => s.server.pin hostKey s.now
      | .load _ | .connect .. | .handshake .. | .auth .. => s.server
    log := notes s out k ++ s.log }

def next (s : Store) (out : Outside) : Call → Option Call
  | .load op =>
    match optsFor decrypt s.server op with
    | .error _ => none
    | .ok opts => some (.connect op s.server opts)
  | .connect op server opts =>
    match checkOpts opts with
    | .error _ => none
    | .ok _ => some (.handshake op server opts s.server.pinned)
  | .handshake op server opts started =>
    (out.hostKey.filter (verifies opts)).map fun hostKey ↦ .auth op server started hostKey
  | .auth op server started hostKey =>
    if out.accepted ∧ settle op server hostKey = .ok true then some (.pin started hostKey)
    else none
  | .pin .. => none

def change (s : Store) : Change → Option Store
  | .resetHostKey => some { s with server := s.server.resetHostKey }
  | .edit server =>
    some { s with
      server := { server with
        hostKeyFingerprint := s.server.hostKeyFingerprint
        hostKeyAlgorithm := s.server.hostKeyAlgorithm
        hostKeyPinnedAt := s.server.hostKeyPinnedAt } }
  | .time now => if s.now ≤ now then some { s with now } else none

def program : Program Store Operation Call Outside Change where
  start op := .load op
  act _ s k out := some (effect s out k, next decrypt s out k)
  env := change

end

/-- If a key was pinned when a connection was opened, the host presents it, or the caller
expects it.  If a key is pinned when a connection is about to pin the one it was presented, it
is that one; and likewise when a connection is handed over that was opened with no key pinned. -/
def genuine (s : Store) (out : Outside) : Call → Bool
  | .handshake _ _ opts started => started.all fun f ↦
      out.hostKey.all (fun k ↦ k.fingerprint = f) || opts.expectedFingerprint = some f
  | .auth op server started hostKey =>
    (out.accepted ∧ settle op server hostKey = .ok false ∧ started = none) →
      s.server.pinned.all fun f ↦ f = hostKey.fingerprint
  | .pin _ hostKey => s.server.pinned.all fun f ↦ f = hostKey.fingerprint
  | .load _ | .connect .. => true

def isGenuine (p : Pool Store Call) : Event Operation Outside Change → Bool
  | .act i out => (p.calls i).all fun k ↦ genuine p.store out k
  | _ => true

/-- Runs in which hosts present the keys that were pinned. -/
def Genuine (p : Pool Store Call) (e : Event Operation Outside Change) (_ : Pool Store Call) :
    Prop := isGenuine p e = true

/-! ## What a step does -/

section

variable {decrypt : String → String} {server : ServerRow} {hostKey : HostKey} {now : Millis}
  {opts : ConnectOpts} {s s' : Store} {out : Outside} {k k' : Call} {f : String}

@[simp] theorem pinned_pin : (server.pin hostKey now).pinned = some hostKey.fingerprint :=
  truthy_eq_some.mpr ⟨rfl, hostKey.nonempty⟩

theorem verifies_iff : verifies opts hostKey = true ↔
    ∀ expected, truthy opts.expectedFingerprint = some expected → hostKey.fingerprint = expected := by
  unfold verifies
  cases truthy opts.expectedFingerprint with
  | none => simp
  | some expected => simp [eq_comm]

theorem truthy_of_pinned (h : server.pinned = some f) : truthy (some f) = some f :=
  truthy_eq_some.mpr ⟨rfl, (truthy_eq_some.mp h).2⟩

/-! ## Runs -/

/-- No secret was offered to a host with another key than the one pinned, and no connection
handed over. -/
def Enforced (log : List Note) : Prop :=
  (∀ f presented, .attempted (some f) presented ∈ log → presented = f) ∧
    ∀ f presented, .completed (some f) presented ∈ log → presented = f

def Assert (_ : Store) (_ : Nat) : Call → Prop
  | .handshake _ _ _ started => ∀ f, started = some f → truthy (some f) = some f
  | .auth _ _ started hostKey | .pin started hostKey =>
    ∀ f, started = some f → hostKey.fingerprint = f
  | .load _ | .connect .. => True

theorem assert_next {i : Nat} (h : Assert s i k) (hok : genuine s out k = true)
    (hnext : next decrypt s out k = some k') : Assert s i k' := by
  cases k with
  | load op =>
    simp only [next] at hnext
    split at hnext
    · cases hnext
    · obtain rfl := Option.some.inj hnext
      trivial
  | connect op server opts =>
    simp only [next] at hnext
    split at hnext
    · cases hnext
    · obtain rfl := Option.some.inj hnext
      exact fun f hf ↦ truthy_of_pinned hf
  | handshake op server opts started =>
    obtain ⟨hostKey, hfilter, rfl⟩ := Option.map_eq_some_iff.mp hnext
    obtain ⟨hkey, hverifies⟩ := Option.filter_eq_some_iff.mp hfilter
    intro f hf
    subst hf
    simp only [genuine, hkey, Option.all_some, Bool.or_eq_true, decide_eq_true_eq] at hok
    obtain hpresented | hexpected := hok
    · exact hpresented
    · exact verifies_iff.mp hverifies f (hexpected ▸ h f rfl)
  | auth op server started hostKey =>
    obtain ⟨-, hnext⟩ := Option.ite_none_right_eq_some.mp hnext
    obtain rfl := Option.some.inj hnext
    exact h
  | pin => cases hnext

theorem Enforced.cons_attempted {started : Option String} {presented : String} {l : List Note}
    (h : Enforced l) (hp : ∀ f, started = some f → presented = f) :
    Enforced (.attempted started presented :: l) := by
  refine ⟨fun f k hmem ↦ ?_, fun f k hmem ↦ ?_⟩
  · obtain heq | hmem := List.mem_cons.mp hmem
    · cases heq
      exact hp f rfl
    · exact h.1 f k hmem
  · obtain heq | hmem := List.mem_cons.mp hmem
    · cases heq
    · exact h.2 f k hmem

theorem Enforced.cons_completed {pinned : Option String} {presented : String} {l : List Note}
    (h : Enforced l) (hp : ∀ f, pinned = some f → presented = f) :
    Enforced (.completed pinned presented :: l) := by
  refine ⟨fun f k hmem ↦ ?_, fun f k hmem ↦ ?_⟩
  · obtain heq | hmem := List.mem_cons.mp hmem
    · cases heq
    · exact h.1 f k hmem
  · obtain heq | hmem := List.mem_cons.mp hmem
    · cases heq
      exact hp f rfl
    · exact h.2 f k hmem

theorem enforced_effect {i : Nat} (h : Assert s i k) (hok : genuine s out k = true)
    (hlog : Enforced s.log) : Enforced (effect s out k).log := by
  cases k with
  | load | connect | handshake => exact hlog
  | auth op server started hostKey =>
    have htried := hlog.cons_attempted h
    show Enforced (notes s out (.auth op server started hostKey) ++ s.log)
    by_cases hdone : out.accepted = true ∧ settle op server hostKey = .ok false
    · rw [notes, if_pos hdone]
      refine htried.cons_completed fun f hf ↦ ?_
      cases started with
      | none =>
        have hall := of_decide_eq_true hok ⟨hdone.1, hdone.2, rfl⟩
        rw [show s.server.pinned = some f from hf] at hall
        exact (of_decide_eq_true hall).symm
      | some started => exact h f hf
    · rw [notes, if_neg hdone]
      exact htried
  | pin started hostKey =>
    refine hlog.cons_completed fun f hf ↦ ?_
    cases started with
    | none =>
      rw [Option.none_or, pinned_pin] at hf
      exact Option.some.inj hf
    | some started => exact h f hf

theorem pinned_effect (hpinned : s.server.pinned = some f) (hok : genuine s out k = true) :
    (effect s out k).server.pinned = some f := by
  cases k with
  | pin started hostKey =>
    rw [genuine, hpinned] at hok
    have hsame : f = hostKey.fingerprint := of_decide_eq_true hok
    exact pinned_pin.trans (congrArg some hsame.symm)
  | load | connect | handshake | auth => exact hpinned

theorem pinned_change {c : Change} (hc : change s c = some s') (hreset : c ≠ .resetHostKey) :
    s'.server.pinned = s.server.pinned := by
  cases c with
  | resetHostKey => exact absurd rfl hreset
  | edit server =>
    obtain rfl := Option.some.inj hc
    rfl
  | time now =>
    obtain ⟨-, hc⟩ := Option.ite_none_right_eq_some.mp hc
    obtain rfl := Option.some.inj hc
    rfl

theorem log_change {c : Change} (hc : change s c = some s') : s'.log = s.log := by
  cases c with
  | resetHostKey | edit =>
    obtain rfl := Option.some.inj hc
    rfl
  | time now =>
    obtain ⟨-, hc⟩ := Option.ite_none_right_eq_some.mp hc
    obtain rfl := Option.some.inj hc
    rfl

end

section

variable {decrypt : String → String} {p q : Pool Store Call} {server : ServerRow} {now : Millis}
  {e : Event Operation Outside Change} {es fs : List (Event Operation Outside Change)}

theorem program_keeps : (program decrypt).Keeps Genuine (fun s ↦ Enforced s.log) Assert where
  spawn s i op _ := trivial
  act p i k out s' k' hp hk hact hok := by
    obtain ⟨rfl, rfl⟩ := Prod.mk.inj (Option.some.inj hact)
    have hok : genuine p.store out k = true := by simpa [Genuine, isGenuine, hk] using hok
    have ha := hp.2 i k hk
    refine ⟨enforced_effect ha hok hp.1, fun l hl ↦ ?_, fun j l _ hl ↦ hp.2 j l hl⟩
    have hnext : Assert p.store i l := assert_next ha hok hl
    exact hnext
  abort p i k hp _ := ⟨hp.1, fun j l _ hl ↦ hp.2 j l hl⟩
  env s c s' h hc := by
    refine ⟨?_, fun j l hl ↦ hl⟩
    rw [log_change hc]
    exact h

theorem pinned_step {f : String} (hs : (program decrypt).step p e = some q) (hok : Genuine p e q)
    (hreset : e ≠ .env .resetHostKey) (hpinned : p.store.server.pinned = some f) :
    q.store.server.pinned = some f := by
  cases e with
  | spawn i op =>
    obtain ⟨-, rfl⟩ := Program.step_spawn hs
    exact hpinned
  | act i out =>
    obtain ⟨k, r, hk, hact, rfl⟩ := Program.step_act hs
    obtain rfl := Option.some.inj hact
    have hok : genuine p.store out k = true := by simpa [Genuine, isGenuine, hk] using hok
    exact pinned_effect hpinned hok
  | abort i =>
    obtain ⟨k, -, rfl⟩ := Program.step_abort hs
    exact hpinned
  | env c =>
    obtain ⟨s', hc, rfl⟩ := Program.step_env hs
    exact (pinned_change hc fun h ↦ hreset (congrArg _ h)).trans hpinned

theorem pinned_run {f : String} (hr : Run (program decrypt).step Genuine p fs q)
    (hreset : .env .resetHostKey ∉ fs) (hpinned : p.store.server.pinned = some f) :
    q.store.server.pinned = some f := by
  induction hr with
  | nil => exact hpinned
  | snoc _ hs hok ih =>
    obtain ⟨hrest, hlast⟩ := not_or.mp fun h ↦ hreset (List.mem_append.mpr h)
    exact pinned_step hs hok (fun h ↦ hlast (List.mem_singleton.mpr h.symm)) (ih hrest)

/-- **Host keys are pinned and enforced in a run in which hosts present the keys that were
pinned.** -/
theorem run_enforced
    (h₁ : Run (program decrypt).step Genuine (Program.idle Call ⟨server, now, []⟩) es p)
    (h₂ : Run (program decrypt).step Genuine p fs q) :
    (∀ f presented, .attempted (some f) presented ∈ q.store.log → presented = f) ∧
      (∀ f presented, .completed (some f) presented ∈ q.store.log → presented = f) ∧
      (.env .resetHostKey ∉ fs → ∀ f, p.store.server.pinned = some f →
        q.store.server.pinned = some f) := by
  have hinit : Enforced ([] : List Note) :=
    ⟨fun _ _ h ↦ absurd h List.not_mem_nil, fun _ _ h ↦ absurd h List.not_mem_nil⟩
  have hlog := (program_keeps.run (Program.holds_idle hinit) (h₁.trans h₂)).1
  exact ⟨hlog.1, hlog.2, fun hreset _ hpinned ↦ pinned_run h₂ hreset hpinned⟩

end

/-! ## Examples -/

/-- A server with an identity, and the key `SHA256:a` pinned. -/
def pinnedServer : ServerRow where
  id := "s1"
  hostname := "web"
  credential := some { username := "root", authType := .password, passwordEncrypted := some "x" }
  hostKeyFingerprint := some "SHA256:a"

def plain (secret : String) : String := secret

def ofHost (fingerprint : String) (h : fingerprint ≠ "" := by decide) : Outside where
  hostKey := some { fingerprint, algorithm := "ssh-ed25519", nonempty := h }
  accepted := true

def sameKey : List (Event Operation Outside Change) :=
  [.spawn 0 (.connect none), .act 0 {}, .act 0 {}, .act 0 (ofHost "SHA256:a"),
    .act 0 (ofHost "SHA256:a")]

theorem run_enforced_sameKey : ∃ q : Pool Store Call,
    ((∀ f presented, .attempted (some f) presented ∈ q.store.log → presented = f) ∧
      (∀ f presented, .completed (some f) presented ∈ q.store.log → presented = f) ∧
      (.env .resetHostKey ∉ sameKey → ∀ f, pinnedServer.pinned = some f →
        q.store.server.pinned = some f)) ∧
      q.store.log.length = 2 := by
  have h : execIf (program plain).step isGenuine (Program.idle Call ⟨pinnedServer, 0, []⟩) sameKey =
      some _ := rfl
  exact ⟨_, run_enforced .nil (run_of_execIf h), rfl⟩

def otherKey : List (Event Operation Outside Change) :=
  [.spawn 0 (.connect none), .act 0 {}, .act 0 {}, .act 0 (ofHost "SHA256:b"),
    .act 0 (ofHost "SHA256:b")]

/-- The password is offered to it, although another key was pinned. -/
theorem secret_offered : ∃ q : Pool Store Call,
    Run (program plain).step free (Program.idle Call ⟨pinnedServer, 0, []⟩) otherKey q ∧
      ¬ ∀ f presented, .attempted (some f) presented ∈ q.store.log → presented = f := by
  have h : ∃ q : Pool Store Call, exec (program plain).step
      (Program.idle Call ⟨pinnedServer, 0, []⟩) otherKey = some q ∧
      q.store.log = [.attempted (some "SHA256:a") "SHA256:b"] := ⟨_, rfl, rfl⟩
  obtain ⟨q, hq, hlog⟩ := h
  refine ⟨q, run_of_exec hq, ?_⟩
  intro hall
  exact absurd (hall "SHA256:a" "SHA256:b" (by rw [hlog]; exact List.mem_cons_self)) (by decide)

end Shellius.HostKeys
