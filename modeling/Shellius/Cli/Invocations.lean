import Shellius.Lib.Pool
import Shellius.Schema
import Shellius.Text

/-!
# Invocations of the CLI

`tui/cmd/shellius/main.go` and the packages `config`, `auth`, `api` and `tui`: the URL of the server
is in the config file, and the tokens are in the file `credentials` beside it.  An invocation loads
both, and a flag or a sub-command may put another URL in memory.  The app sends the tokens in memory
to the URL in memory, or to the one that a client was made with, and `Save` writes the two files one
after the other.

One invocation follows another; within each, calls of the API, a refresh, polls for a token and the
user interleave.  Files go by their absolute paths, and `dir` is `filepath.Dir`.
-/

namespace Shellius.Cli.Invocations

open Lib

/-! ## Files -/

/-- A token, and the server that gave it; the latter is no part of the code. -/
structure Token where
  value : String
  issuer : String
deriving DecidableEq

/-- What an answer of a server has in a field for a token. -/
def Token.of? (issuer value : String) : Option Token :=
  if value = "" then none else some ⟨value, issuer⟩

/-- The tokens of `Credentials`; `none` is the empty string. -/
structure Credentials where
  accessToken : Option Token := none
  refreshToken : Option Token := none
  tokenExpiresAt : Millis := 0

/-- Whether the access token is missing, or expires within a minute. -/
def Credentials.expiring (c : Credentials) (now : Millis) : Bool :=
  c.accessToken.isNone || !decide (now + 60 * 1000 < c.tokenExpiresAt)

/-- The files: the URL in each config file, where a missing file has none, and the credentials in
each directory.  The last field is no part of the code: the config file of the invocation that
wrote them. -/
structure Files where
  serverURL : String → String := fun _ ↦ ""
  credentials : String → Credentials := fun _ ↦ {}
  savedBy : String → Option String := fun _ ↦ none

structure Config where
  configPath : String
  serverURL : String := ""
  creds : Credentials := {}

/-- How far a `Save` comes. -/
inductive Saved
  | all
  | prefs
  | nothing
deriving DecidableEq

section

variable (dir : String → String)

/-- `Load` -/
def load (files : Files) (configPath : String) : Config where
  configPath
  serverURL := files.serverURL configPath
  creds := files.credentials (dir configPath)

def writePrefs (files : Files) (c : Config) : Files :=
  { files with serverURL := Function.update files.serverURL c.configPath c.serverURL }

def writeCredentials (files : Files) (c : Config) : Files :=
  { files with
    credentials := Function.update files.credentials (dir c.configPath) c.creds
    savedBy := Function.update files.savedBy (dir c.configPath) (some c.configPath) }

/-- `Save` -/
def save (files : Files) (c : Config) : Saved → Files
  | .all => writeCredentials dir (writePrefs files c) c
  | .prefs => writePrefs files c
  | .nothing => files

/-- `Clear`, as far as the file. -/
def clear (files : Files) (c : Config) : Files :=
  { files with credentials := Function.update files.credentials (dir c.configPath) {} }

end

/-! ## The app -/

/-- The screens: the prompt for the URL, the login, and those that appear after it. -/
inductive View
  | serverURL
  | login
  | home
deriving DecidableEq

/-- A refresh that is under way: where it was sent, and the client that waits for it. -/
structure Refreshing where
  asked : String
  baseURL : String

/-- An invocation: whether the app has a client, the clients that were made, by their URLs, the
calls that have checked the tokens and are about to be sent, a refresh, the polls for a token, by
the URL they go to, and whether a server has refused to refresh. -/
structure Process where
  cfg : Config
  view : View
  hasClient : Bool := false
  clients : List String := []
  calls : List String := []
  refreshing : Option Refreshing := none
  polls : List String := []
  refused : Bool := false

/-- `NewApp` -/
def newApp (cfg : Config) : Process :=
  if cfg.serverURL = "" then { cfg, view := .serverURL }
  else if cfg.creds.refreshToken = none then { cfg, view := .login }
  else { cfg, view := .home, hasClient := true, clients := [cfg.serverURL] }

inductive Answer
  | tokens (accessToken refreshToken : String) (expiresIn : Int)
  | unauthorized
  | failed

def Credentials.refreshed (c : Credentials) (issuer accessToken refreshToken : String)
    (expiresIn : Int) (now : Millis) : Credentials where
  accessToken := Token.of? issuer accessToken
  refreshToken := (Token.of? issuer refreshToken).or c.refreshToken
  tokenExpiresAt := now + expiresIn * 1000

namespace Process

variable (p : Process)

def setCreds (creds : Credentials) : Process := { p with cfg := { p.cfg with creds } }

/-- `api.New` -/
def newClient : Process := { p with hasClient := true, clients := p.clients ++ [p.cfg.serverURL] }

end Process

/-! ## Command lines -/

inductive Subcommand
  | none
  | doctor
  | login (url : Option String)

/-- A command line; `config` is the path that is used. -/
structure Args where
  config : String
  server : String := ""
  logout : Bool := false
  subcmd : Subcommand := .none

/-- `strings.TrimRight` of slashes. -/
def trimSlashes (url : String) : String :=
  .ofList (url.toList.reverse.dropWhile (· = '/')).reverse

/-- A character that `strings.TrimSpace` removes. -/
def isGoSpace (c : Char) : Bool := c.val = 0x85 || isSpace c && c.val ≠ 0xfeff

/-- `strings.TrimSpace` -/
def trimSpace (s : String) : String :=
  .ofList ((((s.toList.dropWhile isGoSpace).reverse).dropWhile isGoSpace).reverse)

def loginURL (cfg : Config) (url : Option String) : String :=
  (url.map trimSlashes).getD cfg.serverURL

/-- The URL in memory when the app starts. -/
def Args.serverURL (a : Args) (cfg : Config) : String :=
  if a.server = "" then cfg.serverURL else a.server

section

variable (dir : String → String)

/-- `main` after the sub-commands; `removed` is whether `Clear` removes the file. -/
def run (files : Files) (a : Args) (cfg : Config) (removed : Bool) : Files × Option Process :=
  let cfg := { cfg with serverURL := a.serverURL cfg }
  if a.logout then (if removed then clear dir files cfg else files, none)
  else (files, some (newApp cfg))

def main (files : Files) (a : Args) (saved : Saved) (removed : Bool) : Files × Option Process :=
  let cfg := load dir files a.config
  match a.subcmd with
  | .doctor => (files, none)
  | .login url =>
    let cfg := { cfg with serverURL := loginURL cfg url, creds := {} }
    if cfg.serverURL = "" then (files, none)
    else if saved = .all then run dir (save dir files cfg .all) a cfg removed
    else (save dir files cfg saved, none)
  | .none => run dir files a cfg removed

end

/-! ## Steps -/

/-- A request that carried a token. -/
structure Sent where
  url : String
  token : Token
deriving DecidableEq

/-- The files, the invocation that runs, and the requests that carried a token; the last are no part
of the code. -/
structure State where
  files : Files := {}
  process : Option Process := none
  sent : List Sent := []

inductive Event
  | start (a : Args) (saved : Saved) (removed : Bool)
  | enterURL (val : String) (saved saved' : Saved)
  | /-- `pollForToken` begins. -/
    poll
  | deviceAuthToken (n : Nat) (accessToken refreshToken : String) (expiresIn : Int) (now : Millis)
      (saved : Saved)
  | openHostList
  | sshExited
  | /-- `do` calls `RefreshIfNeeded`. -/
    refreshIfNeeded (client : Nat) (now : Millis)
  | receive (answer : Answer) (now : Millis) (saved : Saved)
  | /-- `do` sends a request. -/
    send (n : Nat)
  | /-- `RefreshPermissions` saves what the server says of the user. -/
    refreshPermissions (saved : Saved)
  | sessionExpired (saved : Saved)
  | /-- The command `/logout`. -/
    logout (removed : Bool)
  | quit

namespace State

variable (s : State)

def setProcess (p : Process) : State := { s with process := some p }

def setAndSave (dir : String → String) (p : Process) (saved : Saved) : State :=
  { s with process := some p, files := save dir s.files p.cfg saved }

/-- A request carries a token. -/
def present (url : String) (token : Token) : State := { s with sent := s.sent ++ [⟨url, token⟩] }

end State

def act (dir : String → String) (s : State) (p : Process) : Event → Option State
  | .start .. => none
  | .enterURL val saved saved' =>
    if p.view = .serverURL then
      if trimSpace val = "" then some s
      else
        let p' := { p with cfg := { p.cfg with serverURL := trimSpace val }, view := .login }
        some ((s.setAndSave dir p' saved).setAndSave dir p' saved')
    else none
  | .poll =>
    if p.view = .login then some (s.setProcess { p with polls := p.polls ++ [p.cfg.serverURL] })
    else none
  | .deviceAuthToken n accessToken refreshToken expiresIn now saved =>
    if p.view = .login then
      (p.polls[n]?).map fun url ↦
        let p' := p.setCreds
          ⟨Token.of? url accessToken, Token.of? url refreshToken, now + expiresIn * 1000⟩
        -- The login has succeeded when the tokens are saved.
        if saved = .all then s.setAndSave dir { p'.newClient with view := .home } saved
        else s.setAndSave dir p' saved
    else none
  | .openHostList =>
    if p.view = .home then
      some (if p.hasClient then s else s.setProcess p.newClient)
    else none
  | .sshExited =>
    if p.view = .serverURL ∨ p.clients = [] then none
    else some (s.setProcess { p with view := .home })
  | .refreshIfNeeded client now =>
    if p.refreshing = none then
      (p.clients[client]?).map fun baseURL ↦
        match p.cfg.creds.refreshToken with
        | none => s
        | some token =>
          if p.cfg.creds.expiring now then
            (s.setProcess { p with refreshing := some ⟨p.cfg.serverURL, baseURL⟩ }).present
              p.cfg.serverURL token
          else s.setProcess { p with calls := p.calls ++ [baseURL] }
    else none
  | .receive answer now saved =>
    p.refreshing.map fun r ↦
      let p := { p with refreshing := none }
      match answer with
      | .tokens accessToken refreshToken expiresIn =>
        let p := p.setCreds
          (p.cfg.creds.refreshed r.asked accessToken refreshToken expiresIn now)
        if saved = .all then
          s.setAndSave dir { p with calls := p.calls ++ [r.baseURL] } saved
        else s.setAndSave dir p saved
      | .unauthorized => s.setProcess { p with refused := true }
      | .failed => s.setProcess p
  | .send n =>
    (p.calls[n]?).map fun baseURL ↦
      let s := s.setProcess { p with calls := p.calls.eraseIdx n }
      match p.cfg.creds.accessToken with
      | some token => s.present baseURL token
      | none => s
  | .refreshPermissions saved =>
    if p.clients = [] then none else some (s.setAndSave dir p saved)
  | .sessionExpired saved =>
    if p.refused then
      some (s.setAndSave dir { p.setCreds {} with view := .login, hasClient := false } saved)
    else none
  | .logout removed =>
    if p.view = .home then
      if removed then
        some { s with process := some (p.setCreds {}), files := clear dir s.files p.cfg }
      else some s
    else none
  | .quit => some { s with process := none }

def step (dir : String → String) (s : State) (e : Event) : Option State :=
  match s.process, e with
  | none, .start a saved removed =>
    let r := main dir s.files a saved removed
    some { s with files := r.1, process := r.2 }
  | none, _ => none
  | some p, e => act dir s p e

/-! ## What is asked of the CLI -/

/-- Every token was sent to the server that gave it. -/
def State.Home (s : State) : Prop := ∀ r ∈ s.sent, r.token.issuer = r.url

end Shellius.Cli.Invocations
