import Shellius.Auth.RefreshAnswer

/-!
# Several windows of the CLI

`tui/internal/auth/token.go`, `config.go` and `client.go`: every process of the CLI loads the
credentials file when it starts, keeps a copy in memory, and writes the file whole from it.

A process refreshes its tokens before a call of the API, one refresh at a time, which is what the
mutex is for: it reads the token from memory, asks the server, puts the answer in memory and saves.
A save takes a copy of the memory and then writes the file; it may be one of several under way.
The endpoint does not say when the access token expires, which is read as zero seconds from now.
-/

namespace Shellius.Cli

open Lib

/-! ## Credentials -/

/-- Who is signed in, as far as the file says. -/
structure Profile where
  username : String := ""
  role : String := ""
  roleName : String := ""
  permissions : List String := []
  orgId : String := ""
  orgSlug : String := ""
deriving DecidableEq

/-- `Credentials`; `none` is the empty string.  An access token goes by the number of the refresh
token that it was answered with. -/
structure Credentials where
  accessToken : Option Nat := none
  refreshToken : Option Nat := none
  tokenExpiresAt : Millis := 0
  profile : Profile := {}
deriving DecidableEq

/-- What `GET /api/auth/me` answers; `none` is a field that is not there. -/
structure Me where
  email : String := ""
  role : String := ""
  permissions : Option (List String) := none
  orgId : String := ""
  roleName : Option String := none
  orgSlug : Option String := none

/-- `RefreshPermissions`, as far as the save. -/
def Profile.refreshed (p : Profile) (me : Me) : Profile where
  username := if me.email = "" then p.username else me.email
  role := if me.role = "" then p.role else me.role
  roleName := me.roleName.getD ""
  permissions := me.permissions.getD []
  orgId := if me.orgId = "" then p.orgId else me.orgId
  orgSlug := (me.orgSlug.filter (· ≠ "")).getD p.orgSlug

/-- Whether an access token is missing, or expires within a minute. -/
def Credentials.expiring (c : Credentials) (now : Millis) : Bool :=
  c.accessToken.isNone || !decide (now + 60 * 1000 < c.tokenExpiresAt)

/-- The memory after an answer. -/
def Credentials.received (c : Credentials) (token : Nat) (now : Millis) : Credentials :=
  { c with accessToken := some token, refreshToken := some token, tokenExpiresAt := now }

/-! ## Windows -/

/-- How far a refresh is. -/
inductive Phase
  | idle
  | asking (token : Nat)
  | answered (answer : Refresh.Answer)
  | received
  | writing (copy : Credentials)
deriving DecidableEq

/-- A process: its memory, its refresh, and the copies that other saves are about to write. -/
structure Window where
  memory : Credentials
  phase : Phase := .idle
  saves : List Credentials := []

/-- A token that was presented: when, when it had been rotated away, and the answer. -/
structure Presented where
  token : Nat
  now : Millis
  rotatedAt : Option Millis
  answer : Refresh.Answer

/-- The server, the credentials file and the windows.  The last three are no part of the code: when
a token was rotated away, which was issued last, and which were presented. -/
structure State where
  server : Refresh.Store
  file : Credentials
  windows : List Window := []
  rotatedAt : Nat → Option Millis := fun _ ↦ none
  newest : Nat
  presented : List Presented := []

inductive Event
  | load
  | /-- `RefreshIfNeeded` reads the memory. -/
    refreshIfNeeded (w : Nat)
  | serve (w : Nat)
  | receive (w : Nat)
  | /-- `Save` of a refresh copies the memory. -/
    copy (w : Nat)
  | write (w : Nat)
  | /-- `RefreshPermissions` reads what the server says of the user. -/
    refreshPermissions (w : Nat) (me : Me)
  | /-- Another `Save` copies the memory. -/
    save (w : Nat)
  | writeSave (w n : Nat)
  | tick (now : Millis)

namespace State

variable (s : State)

def setWindow (w : Nat) (x : Window) : State := { s with windows := s.windows.set w x }

def serve (cfg : Refresh.Config) (w : Nat) (x : Window) (token : Nat) : State :=
  let r := Refresh.refresh cfg s.server token
  { s with
    server := r.1
    windows := s.windows.set w { x with phase := .answered r.2 }
    rotatedAt :=
      match r.2 with
      | .rotated _ => Function.update s.rotatedAt token (some s.server.now)
      | _ => s.rotatedAt
    newest :=
      match r.2 with
      | .rotated new => new
      | _ => s.newest
    presented := s.presented ++ [⟨token, s.server.now, s.rotatedAt token, r.2⟩] }

/-- Nobody is refreshing. -/
def quiet : Bool := s.windows.all (·.phase = .idle)

end State

def step (cfg : Refresh.Config) (s : State) : Event → Option State
  | .load => some { s with windows := s.windows ++ [{ memory := s.file }] }
  | .refreshIfNeeded w =>
    (s.windows[w]?).bind fun x ↦
      if x.phase = .idle then
        match x.memory.refreshToken with
        | some token =>
          if x.memory.expiring s.server.now then
            some (s.setWindow w { x with phase := .asking token })
          else some s
        | none => some s
      else none
  | .serve w =>
    (s.windows[w]?).bind fun x ↦
      match x.phase with
      | .asking token => some (s.serve cfg w x token)
      | _ => none
  | .receive w =>
    (s.windows[w]?).bind fun x ↦
      match x.phase with
      | .answered (.rotated token) =>
        some (s.setWindow w { x with
          memory := x.memory.received token s.server.now, phase := .received })
      -- The refresh fails, and the tokens in memory are left as they are.
      | .answered _ => some (s.setWindow w { x with phase := .idle })
      | _ => none
  | .copy w =>
    (s.windows[w]?).bind fun x ↦
      if x.phase = .received then some (s.setWindow w { x with phase := .writing x.memory })
      else none
  | .write w =>
    (s.windows[w]?).bind fun x ↦
      match x.phase with
      | .writing c => some { s.setWindow w { x with phase := .idle } with file := c }
      | _ => none
  | .refreshPermissions w me =>
    (s.windows[w]?).map fun x ↦
      s.setWindow w { x with
        memory := { x.memory with profile := x.memory.profile.refreshed me } }
  | .save w =>
    (s.windows[w]?).map fun x ↦ s.setWindow w { x with saves := x.saves ++ [x.memory] }
  | .writeSave w n =>
    (s.windows[w]?).bind fun x ↦
      (x.saves[n]?).map fun c ↦
        { s.setWindow w { x with saves := x.saves.eraseIdx n } with file := c }
  | .tick now => if s.server.now ≤ now then some { s with server.now := now } else none

def signedIn (cfg : Refresh.Config) (server : Refresh.Store) (userId : Id) (profile : Profile)
    (tokenExpiresAt : Millis) : State where
  server := Refresh.effect cfg server (.issue userId)
  file := {
    accessToken := some (server.next + 1)
    refreshToken := some (server.next + 1)
    tokenExpiresAt
    profile }
  newest := server.next + 1

/-! ## What is asked of the CLI -/

/-- A token is presented later than the grace period after it was rotated away. -/
def Presented.late (cfg : Refresh.Config) (x : Presented) : Bool :=
  x.rotatedAt.any fun t ↦ cfg.graceMs < x.now - t

/-- No token is presented too late, or taken for stolen, and while nobody is refreshing the file
has the token that was issued last. -/
structure Shared (cfg : Refresh.Config) (s : State) : Prop where
  presented : ∀ x ∈ s.presented, x.late cfg = false ∧ x.answer ≠ .stolen
  file : s.quiet = true → s.file.refreshToken = some s.newest

end Shellius.Cli
