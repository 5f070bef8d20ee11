import Mathlib.Data.List.SplitOn
import Shellius.Lib.Pool

/-!
# The updater of the collector

`scripts/posture/shellius-collector-update.sh`, as far as it has effects: the files beside the
collector, and how far a run has come.  A command of it may fail, or have written a part of its
file, and the process may die, at any point.  Whoever sits at the address of the API answers what
they like.

Text and the contents of files are lists of characters; the log is left out.
-/

namespace Shellius.Collector.Updater

open Lib

abbrev Bytes := List Char

/-- The commands that the script relies on. -/
structure Tools where
  sha256sum : Bytes → List Char
  /-- `openssl base64 -d -A` and `openssl dgst -sha256 -verify`, with the key of the host. -/
  verify : List Char → Bytes → Bool
  /-- `version_le`: whether `sort -V` prints the first of two lines first. -/
  versionLe : List Char → List Char → Bool
  /-- Whether a collector runs, and prints an object. -/
  works : Bytes → Bool
  /-- `--dry-run` -/
  dryRun : Bool := false

/-! ## What is read from text -/

def lines (text : List Char) : List (List Char) := text.splitOn '\n'

/-- What stands before the next double quote, if there is one. -/
def quoted (text : List Char) : Option (List Char) :=
  if '\x22' ∈ text then some (text.takeWhile (· ≠ '\x22')) else none

/-- What `.*` and a pattern, and then a quoted text, match: the last place there is. -/
def lastQuoted (pattern : List Char) : List Char → Option (List Char)
  | [] => none
  | c :: cs =>
    match lastQuoted pattern cs with
    | some text => some text
    | none => (pattern.isPrefixOf? (c :: cs)).bind quoted

def field (name offer : List Char) : List Char :=
  let pattern := ['\x22'] ++ name ++ ['\x22', ':', '\x22']
  ((lines offer).filterMap (lastQuoted pattern)).headD []

structure Offer where
  version : List Char
  sha256 : List Char
  signature : List Char
deriving DecidableEq

/-- The offer in an answer, if it has all that it takes. -/
def readOffer (text : List Char) : Option Offer :=
  let offer : Offer :=
    ⟨field "version".toList text, field "sha256".toList text, field "signature".toList text⟩
  if offer.version = [] then none
  else if offer.sha256 = [] ∨ offer.signature = [] then none
  else some offer

/-- The version written in a script: `^VERSION="\([^"]*\)".*`. -/
def versionOf (script : Bytes) : List Char :=
  ((lines script).filterMap fun line ↦ ("VERSION=\x22".toList.isPrefixOf? line).bind quoted).headD []

/-! ## Files -/

structure File where
  content : Bytes
  executable : Bool

inductive Pc
  | preflight
  | asking
  | comparing (offer : Offer)
  | fetching (offer : Offer)
  | verifying (offer : Offer) (script : Bytes)
  | /-- `install`, to a file beside the collector. -/
    staging (script : Bytes)
  | /-- `cp -p`, of the collector that there is. -/
    keeping
  | /-- `mv`, of the staged file. -/
    swapping
  | testing
  | /-- `mv`, of the collector that was kept. -/
    restoring
deriving DecidableEq

/-- A host: the collector, the copy that is kept of it, and the file that a run has staged. -/
structure Host where
  collector : Option File
  previous : Option File := none
  staged : Option File := none
  run : Option Pc := none

namespace Host

variable (h : Host)

/-- The run goes on. -/
def goto (pc : Pc) : Host := { h with run := some pc }

/-- The run ends, and its files are removed. -/
def exit : Host := { h with staged := none, run := none }

def content : Option Bytes := h.collector.map (·.content)

def version : List Char := (h.content.map versionOf).getD []

def isWorking (t : Tools) : Bool := h.collector.any fun f ↦ f.executable && t.works f.content

end Host

inductive Event
  | start
  | offer (text : List Char)
  | script (bytes : Bytes)
  | write (n : Nat) (executable : Bool)
  | go
  | fail
  | /-- `id` does not find the account of the collector. -/
    noAccount
  | kill

/-! ## Steps -/

def compare (t : Tools) (h : Host) (offer : Offer) : Host :=
  match h.collector.filter (·.executable) with
  | some f =>
    let current := versionOf f.content
    if current = offer.version then h.exit
    else if current ≠ [] ∧ t.versionLe offer.version current = true then h.exit
    else h.goto (.fetching offer)
  | none => h.goto (.fetching offer)

def verified (t : Tools) (offer : Offer) (script : Bytes) : Bool :=
  t.sha256sum script = offer.sha256 && t.verify offer.signature script &&
    "#!".toList.isPrefixOf script

/-- The smoke run was no success. -/
def rollBack (h : Host) : Host :=
  if h.previous.any (·.executable) then h.goto .restoring else h.exit

/-- The command at hand ends. -/
def go (t : Tools) (h : Host) : Pc → Option Host
  | .preflight => some (h.goto .asking)
  | .comparing offer => some (compare t h offer)
  | .verifying offer script =>
    if verified t offer script && !t.dryRun then some (h.goto (.staging script)) else some h.exit
  | .staging script => some { h with staged := some ⟨script, true⟩, run := some .keeping }
  | .keeping =>
    match h.collector.filter (·.executable) with
    | some f => some { h with previous := some f, run := some .swapping }
    | none => some (h.goto .swapping)
  | .swapping => some { h with collector := h.staged, staged := none, run := some .testing }
  | .testing => if h.isWorking t then some h.exit else some (rollBack h)
  | .restoring =>
    some { h.exit with
      collector := h.previous.map fun f ↦ { f with executable := true }
      previous := none }
  | .asking | .fetching _ => none

/-- The command at hand fails. -/
def failed (h : Host) : Pc → Host
  -- `CURRENT` is left empty, or `version_le` says no
  | .comparing offer => h.goto (.fetching offer)
  | .testing => rollBack h
  | _ => h.exit

def step (t : Tools) (h : Host) : Event → Option Host
  | .start => if h.run = none then some (h.goto .preflight) else none
  | .offer text =>
    if h.run = some .asking then
      match readOffer text with
      | some offer => some (h.goto (.comparing offer))
      | none => some h.exit
    else none
  | .script bytes =>
    match h.run with
    | some (.fetching offer) =>
      if bytes = [] then some h.exit else some (h.goto (.verifying offer bytes))
    | _ => none
  | .write n executable =>
    match h.run with
    | some (.staging script) => some { h with staged := some ⟨script.take n, executable⟩ }
    | some .keeping =>
      (h.collector.filter (·.executable)).map fun f ↦
        { h with previous := some ⟨f.content.take n, executable⟩ }
    | _ => none
  | .go => h.run.bind (go t h)
  | .fail => h.run.map (failed h)
  | .noAccount => if h.run = some .testing then some h.exit else none
  | .kill => h.run.map fun _ ↦ { h with run := none }

/-! ## What is asked of the updater -/

/-- Before the first run: there may be a collector, and there is nothing of the updater's. -/
structure Host.Untouched (h : Host) : Prop where
  previous : h.previous = none
  staged : h.staged = none
  run : h.run = none

/-- What holds at every moment: the collector is what was there before or has been signed, whole,
and where there was one that works there is one whenever no run is going on. -/
structure Host.Safe (t : Tools) (start h : Host) : Prop where
  genuine : ∀ bytes, h.content = some bytes →
    start.content = some bytes ∨ ∃ signature, t.verify signature bytes = true
  present : start.content ≠ none → h.content ≠ none
  works : start.isWorking t = true → h.run = none → h.isWorking t = true

/-- From one moment without a run to another, the version does not go back. -/
def NotOlder (t : Tools) (h h' : Host) : Prop :=
  h.run = none → h'.run = none → h.version ≠ [] →
    h'.version ≠ [] ∧ t.versionLe h.version h'.version = true

end Shellius.Collector.Updater
