import Shellius.Lib.Pool
import Shellius.Schema

/-!
# The active-access screen of the CLI

`tui/internal/tui/activeaccess.go`, `internal/cache/cache.go`, the listing in `internal/api` and the
parts of `internal/tui/app.go` that show the screen.  The screen paints the list of the last message
that reached it: one that was read from the cache when the screen was made, or one that was fetched.
A fetch asks for one page after the other, each with the access token that is in memory then, and
writes the whole list to the cache, which is one file for all accounts.

One invocation follows another.  What an invocation loads is arbitrary: any account may have signed
in with its config file before.  The cache is in the home directory, whatever the config file is,
and neither a logout nor the end of a session touches it.
-/

namespace Shellius.Cli.ActiveAccess

open Lib

/-! ## Lists -/

structure Account where
  server : String
  user : String
deriving DecidableEq

/-- `AccessRequest`, as far as a listing looks at it. -/
structure AccessRequest where
  id : Id
  status : String := "APPROVED"
  expiresAt : Option Millis := none
deriving DecidableEq

def AccessRequest.expired (r : AccessRequest) (now : Millis) : Bool := r.expiresAt.any (· < now)

/-- A list of requests.  For which accounts its pages were answered is no part of the code. -/
structure Listing where
  requests : List AccessRequest := []
  fetchedFor : List Account := []
deriving DecidableEq

/-- One more page, without the requests that were listed already; those without an identifier are
kept. -/
def Listing.addPage (l : Listing) (items : List AccessRequest) (account : Account) : Listing where
  requests := items.foldl
    (fun all r ↦ if r.id ≠ "" ∧ r.id ∈ all.map AccessRequest.id then all else all ++ [r]) l.requests
  fetchedFor := l.fetchedFor ++ [account]

/-- `ListMyActiveAccessRequests`, after the last page. -/
def Listing.active (l : Listing) (now : Millis) : Listing :=
  { l with requests := l.requests.filter fun r ↦ r.status = "APPROVED" && !r.expired now }

/-- Nothing in the list is past its expiry. -/
def Listing.current (l : Listing) (now : Millis) : Bool := l.requests.all fun r ↦ !r.expired now

/-- Every page was answered for one account. -/
def Listing.isFor (l : Listing) (account : Account) : Bool := l.fetchedFor.all (· = account)

/-! ## The cache -/

/-- `active-access.json` and the file beside it that says when it was written. -/
structure Cache where
  data : Option Listing := none
  cachedAt : Option Millis := none

/-- How far a `Write` comes. -/
inductive Written
  | all
  | data
  | nothing

def activeAccessCacheTTL : Millis := 15 * 60 * 1000

/-- `Read` -/
def Cache.read (c : Cache) (now : Millis) : Option Listing :=
  c.cachedAt.bind fun cachedAt ↦ if activeAccessCacheTTL < now - cachedAt then none else c.data

/-- `Write` -/
def Cache.write (c : Cache) (l : Listing) (now : Millis) : Written → Cache
  | .all => ⟨some l, some now⟩
  | .data => { c with data := some l }
  | .nothing => c

/-! ## The app -/

inductive View
  | serverURL
  | login
  | activeAccess
  | elsewhere
deriving DecidableEq

inductive ActiveAccessState
  | loading
  | ready
  | error
deriving DecidableEq

/-- `activeAccessModel`; its client goes by the URL that it was made with. -/
structure ActiveAccessModel where
  client : String := ""
  state : ActiveAccessState := .loading
  list : Listing := {}

/-- A fetch that is under way: its client, the account whose token the last request carried, unless
that one has been answered, and what has been listed. -/
structure Fetch where
  client : String
  asked : Option Account := none
  list : Listing := {}

/-- An invocation: the URL and the account whose tokens are in memory, the client of the app, the
screen, the fetches and the messages with a list that are under way. -/
structure App where
  serverURL : String
  account : Option String
  client : Option String := none
  view : View
  activeAccess : ActiveAccessModel := {}
  fetches : List Fetch := []
  loaded : List Listing := []

structure State where
  now : Millis := 0
  cache : Cache := {}
  app : Option App := none

namespace App

variable (a : App)

def signedIn : Option Account := a.account.map (⟨a.serverURL, ·⟩)

/-- `fetchCmd` and `backgroundFetchCmd` -/
def fetch : App := { a with fetches := a.fetches ++ [{ client := a.activeAccess.client }] }

/-- The screen is made anew, and `Init` reads the cache and begins a fetch. -/
def showActiveAccess (client : String) (cache : Cache) (now : Millis) : App :=
  let a := { a with view := .activeAccess, activeAccess := { client } }
  match cache.read now with
  | some l => { a with loaded := a.loaded ++ [l] }.fetch
  | none => a.fetch

def painted : Option Listing :=
  if a.view = .activeAccess ∧ a.activeAccess.state = .ready then some a.activeAccess.list else none

end App

/-- `NewApp` -/
def newApp (serverURL : String) (account : Option String) (cache : Cache) (now : Millis) : App :=
  if serverURL = "" then { serverURL, account, view := .serverURL }
  else
    match account with
    | none => { serverURL, account, view := .login }
    | some _ =>
      { serverURL, account, client := some serverURL, view := .login : App }.showActiveAccess
        serverURL cache now

/-! ## Steps -/

inductive Event
  | /-- An invocation starts, with what it loads and what the command line makes of it. -/
    start (serverURL : String) (account : Option String)
  | enterURL (serverURL : String)
  | signIn (user : String)
  | sessionExpired
  | ask (n : Nat)
  | page (n : Nat) (items : List AccessRequest) (last : Bool) (written : Written)
  | fail (n : Nat)
  | activeAccessLoaded (n : Nat)
  | refresh (loading : Bool)
  | leave
  | back
  | sshExited
  | quit
  | tick (now : Millis)

namespace State

variable (s : State)

def setApp (a : App) : State := { s with app := some a }

/-- A page is added to a fetch, and after the last one the list is on its way. -/
def answer (a : App) (n : Nat) (f : Fetch) (items : List AccessRequest) (account : Account)
    (last : Bool) (written : Written) : State :=
  let list := f.list.addPage items account
  if last then
    let list := list.active s.now
    { s with
      cache := s.cache.write list s.now written
      app := some { a with fetches := a.fetches.eraseIdx n, loaded := a.loaded ++ [list] } }
  else s.setApp { a with fetches := a.fetches.set n { f with asked := none, list } }

end State

def act (s : State) (a : App) : Event → Option State
  | .start .. => none
  | .enterURL serverURL =>
    if a.view = .serverURL ∧ serverURL ≠ "" then
      some (s.setApp { a with serverURL, view := .login })
    else none
  | .signIn user =>
    if a.view = .login then
      some (s.setApp ({ a with account := some user, client := some a.serverURL }.showActiveAccess
        a.serverURL s.cache s.now))
    else none
  | .sessionExpired =>
    if a.view = .serverURL then none
    else some (s.setApp { a with account := none, client := none, view := .login })
  | .ask n =>
    (a.fetches[n]?).bind fun f ↦
      -- Without tokens it can only fail.
      if f.asked = none then
        a.account.map fun user ↦
          s.setApp { a with
            fetches := a.fetches.set n { f with asked := some ⟨f.client, user⟩ } }
      else none
  | .page n items last written =>
    (a.fetches[n]?).bind fun f ↦ f.asked.map fun account ↦ s.answer a n f items account last written
  | .fail n =>
    (a.fetches[n]?).map fun _ ↦
      let a := { a with fetches := a.fetches.eraseIdx n }
      if a.view = .activeAccess ∧ a.activeAccess.state ≠ .ready then
        s.setApp { a with activeAccess := { a.activeAccess with state := .error } }
      else s.setApp a
  | .activeAccessLoaded n =>
    (a.loaded[n]?).map fun l ↦
      let a := { a with loaded := a.loaded.eraseIdx n }
      -- Another screen does not know the message.
      if a.view = .activeAccess then
        s.setApp { a with activeAccess := { a.activeAccess with state := .ready, list := l } }
      else s.setApp a
  | .refresh loading =>
    if a.view = .activeAccess then
      if loading then
        some (s.setApp { a with activeAccess := { a.activeAccess with state := .loading } }.fetch)
      else some (s.setApp a.fetch)
    else none
  | .leave =>
    if a.view = .activeAccess then some (s.setApp { a with view := .elsewhere }) else none
  | .back =>
    if a.view = .elsewhere then some (s.setApp { a with view := .activeAccess }) else none
  | .sshExited =>
    -- Nothing was opened before the screen was first made.
    if a.activeAccess.client = "" then none
    else
      match a.client with
      | some client => some (s.setApp (a.showActiveAccess client s.cache s.now))
      | none => some (s.setApp { a with view := .activeAccess })
  | .quit => some { s with app := none }
  | .tick now => if s.now ≤ now then some { s with now } else none

def step (s : State) (e : Event) : Option State :=
  match s.app, e with
  | none, .start serverURL account => some (s.setApp (newApp serverURL account s.cache s.now))
  | none, .tick now => if s.now ≤ now then some { s with now } else none
  | none, _ => none
  | some a, e => act s a e

/-! ## What is asked of the screen -/

/-- A list on the screen was fetched for the account that is signed in, and nothing in it is past
its expiry. -/
def State.Own (s : State) : Prop :=
  ∀ a ∈ s.app, ∀ l ∈ a.painted,
    (∀ account ∈ l.fetchedFor, a.signedIn = some account) ∧ ∀ r ∈ l.requests, r.expired s.now = false

end Shellius.Cli.ActiveAccess
