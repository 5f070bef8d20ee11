import Shellius.Lib.Pool
import Shellius.Directory.Sync

/-!
# Whom a directory sync may suspend

A run suspends active humans it looked up and did not find, and nobody that one of
the valves protects.  It judges identity by identity, though, and never asks
whether another identity of the same provider vouches for the user: who has two of
them, one in the listing and one not, is a candidate all the same.  No run
suspends a user it saw if the identities of each user agree.

The fifth valve is kept in the sense of the code: an identity that cannot be looked
up is not judged.  To the letter it says that a user whose directory id is unknown is
never judged; but an identity without one is judged missing when the listing has
e-mails and not this one.  It is kept to the letter if e-mails only ever vouch.
-/

namespace Shellius

open Lib

/-! ## Looking an identity up -/

namespace Directory

variable (d : Directory) (i : UserIdentity)

/-- The identity has a directory id, or an e-mail in a listing that has e-mails. -/
def canLookUp : Bool := truthy i.externalId ≠ none ∨ d.hasEmails = true ∧ d.emailOf i ≠ none

/-- The identity is matched, by directory id or by e-mail, with an account that is
not disabled. -/
def seesActive : Bool := (d.match i).any fun x ↦ !d.isDisabled x.2

variable {d} {i}

end Directory

/-- The sync suspends, and not only on paper. -/
def DirectorySync.isLive (row : DirectorySync) : Bool := row.action = .suspend ∧ row.dryRun = false

structure Justified (s : SyncStore) (row : DirectorySync) (d : Directory) (clock : RunClock)
    (u : ScopedUser) : Prop where
  live : row.isLive = true
  /-- Valves 2 and 3. -/
  believed : s.disbelief row d = none
  /-- Valve 4. -/
  judged : isJudged u = true
  /-- Valves 4 and 5: an identity of the provider could be looked up. -/
  linked : ∃ i, (i, u) ∈ s.people row ∧ d.canLookUp i = true
  /-- No identity of the provider was seen active. -/
  unseen : ∀ i, (i, u) ∈ s.people row → d.seesActive i = false
  /-- Valve 6. -/
  notElsewhere : u.id ∉ s.elsewhere row
  /-- Valve 7. -/
  due : isEligible row clock ((firstSeenAt? s.findings (row.id, u.id)).getD clock.seenAt) = true
  /-- Valve 8. -/
  inLimits : overLimit row (s.candidates row d).length (s.activeUsers row) = none

/-- Whom the listing shows active through one identity, it shows active through
each of their identities that can be looked up. -/
def Agrees (s : SyncStore) (row : DirectorySync) (d : Directory) : Prop :=
  ∀ x ∈ s.people row, ∀ y ∈ s.people row, x.2 = y.2 → isJudged x.2 = true →
    x.2.id ∉ s.elsewhere row → d.seesActive x.1 = true → d.canLookUp y.1 = true →
    d.seesActive y.1 = true

instance (s : SyncStore) (row : DirectorySync) (d : Directory) : Decidable (Agrees s row d) :=
  inferInstanceAs (Decidable (∀ x ∈ s.people row, ∀ y ∈ s.people row, _))

section

variable {s : SyncStore} {row : DirectorySync} {d : Directory} {clock : RunClock} {ids : List Id}
  {t' : Tenancy} {u : ScopedUser}

theorem isLive_iff : row.isLive = true ↔ row.action = .suspend ∧ row.dryRun = false :=
  decide_eq_true_iff

end

/-! ## Runs of the sync -/

/-- A run of a sync, or whatever else happens between two of them. -/
inductive SyncEvent
  | run (row : DirectorySync) (reading : Except String Directory) (clock : RunClock) (runId : Id)
  | change (s' : SyncStore)

/-- The identities of the users agree in the listing of a run. -/
def Consistent (s : SyncStore) : SyncEvent → Prop
  | .run row (.ok d) _ _ => row.isLive = true → Agrees s row d
  | _ => True

section

variable {s s' : SyncStore} {e : SyncEvent}

end

end Shellius
