import Shellius.Lib.Pool

/-!
# Upgrades on the host

`scripts/update-shellius.sh`, as far as it changes something: the application folder, the normal
tags of the images and the tags that it keeps of them, the backups, and the migrations that the
database has.  A command of it may fail, or have done a part of its work, and the process may be
killed, at any point.

A release goes by its version, which its tag and its file `VERSION` agree on, and images by the
release that they were built from.  The lock makes the runs come one after another.
-/

namespace Shellius.Updates.Script

open Lib

abbrev Version := String

/-- `BUILT_IMAGES` -/
inductive Image
  | backend | frontend | guacd
deriving DecidableEq

def builtImages : List Image := [.backend, .frontend, .guacd]

theorem mem_builtImages (img : Image) : img ∈ builtImages := by
  cases img <;> decide

/-- What is at the path of the application. -/
inductive Folder
  | absent
  | /-- A part of a release, and what `current_version` makes of it. -/
    part (version : Version)
  | release (version : Version)
deriving DecidableEq

/-- `current_version` -/
def Folder.version : Folder → Version
  | .absent => "unknown"
  | .part version | .release version => version

def Folder.archived : Folder → Option Version
  | .release version => some version
  | .part _ | .absent => none

/-- A backup: what it is named after, and the release in its archive, if there is an archive. -/
structure Backup where
  version : Version
  stamp : String
  code : Option Version

/-! ## Runs of the script -/

inductive UpgradePc
  | fetching
  | keeping (images : List Image)
  | building
  | checking
  | dumping
  | zipping
  | migrating
  | /-- `rm -rf`, of the application folder. -/
    removing
  | /-- `mv`, of the staging folder. -/
    moving
  | starting
  | /-- `on_exit` puts the images back that were kept. -/
    leaving (images : List Image)
deriving DecidableEq

inductive RollbackPc
  | unzipping
  | tagging (images : List Image) (missing : Bool)
  | rebuilding
  | removing
  | moving
  | starting
deriving DecidableEq

/-- The folder and the normal tags. -/
structure Snapshot where
  code : Folder
  images : Image → Option Version

/-- An upgrade: `CUR_VER`, `NEW_VER`, the date of its backup, and `RETAGGED`.  `before` is no part
of the code. -/
structure Upgrade where
  current : Version
  new : Version
  stamp : String
  retagged : Bool := false
  pc : UpgradePc := .fetching
  before : Snapshot

structure Rollback where
  backup : Backup
  pc : RollbackPc := .unzipping

inductive Process
  | upgrade (u : Upgrade)
  | rollback (r : Rollback)

/-- A host.  The last two are no part of the code: what was the case before and after each run that
said that the running version was not changed, and after each rollback that went to its end. -/
structure Machine where
  code : Folder
  images : Image → Option Version
  /-- `<image>:rollback-<version>` -/
  kept : Image → Version → Option Version := fun _ _ ↦ none
  backups : List Backup := []
  migrated : List Version
  process : Option Process := none
  unchanged : List (Snapshot × Snapshot) := []
  restored : List (Backup × Snapshot) := []

namespace Machine

variable (m : Machine)

def snapshot : Snapshot := ⟨m.code, m.images⟩

def atUpgrade (u : Upgrade) (pc : UpgradePc) : Machine :=
  { m with process := some (.upgrade { u with pc }) }

def atRollback (r : Rollback) (pc : RollbackPc) : Machine :=
  { m with process := some (.rollback { r with pc }) }

/-- The run ends. -/
def quit : Machine := { m with process := none }

def tag (img : Image) (image : Option Version) : Machine :=
  { m with images := Function.update m.images img image }

def keep (img : Image) (version : Version) (image : Version) : Machine :=
  { m with
    kept := Function.update m.kept img (Function.update (m.kept img) version (some image)) }

/-- `on_exit`, before the switch: the images that are left to put back, or the message. -/
def leave (u : Upgrade) : List Image → Machine
  | [] => { m with process := none, unchanged := m.unchanged ++ [(u.before, m.snapshot)] }
  | img :: imgs => m.atUpgrade u (.leaving (img :: imgs))

/-- The script stops, before the switch. -/
def stop (u : Upgrade) : Machine := m.leave u (if u.retagged then builtImages else [])

/-- A rollback has gone to its end. -/
def restore (r : Rollback) : Machine :=
  { m with process := none, restored := m.restored ++ [(r.backup, m.snapshot)] }

end Machine

inductive Event
  | upgrade (new : Version) (stamp : String)
  | rollback (version : Version) (stamp : String)
  | go
  | fail
  | /-- `docker image inspect` fails. -/
    miss
  | built (img : Image)
  | partly (version : Version)
  | kill

/-- One more backup, in place of the one of its name. -/
def putBackup (b : Backup) (backups : List Backup) : List Backup :=
  backups.filter (fun c ↦ ¬ (c.version = b.version ∧ c.stamp = b.stamp)) ++ [b]

/-! ## Commands that end -/

/-- A command of an upgrade ends. -/
def Upgrade.go (m : Machine) (u : Upgrade) : Machine :=
  match u.pc with
  | .fetching => m.atUpgrade u (.keeping builtImages)
  | .keeping [] => m.atUpgrade u .building
  | .keeping (img :: imgs) =>
    match m.images img with
    | some image =>
      (m.keep img u.current image).atUpgrade { u with retagged := true } (.keeping imgs)
    | none => m.atUpgrade u (.keeping imgs)
  | .building => { m with images := fun _ ↦ some u.new }.atUpgrade u .checking
  | .checking => m.atUpgrade u .dumping
  | .dumping => m.atUpgrade u .zipping
  | .zipping =>
    { m with backups := putBackup ⟨u.current, u.stamp, m.code.archived⟩ m.backups }.atUpgrade u
      .migrating
  | .migrating => { m with migrated := m.migrated ++ [u.new] }.atUpgrade u .removing
  | .removing => { m with code := .absent }.atUpgrade u .moving
  | .moving => { m with code := .release u.new }.atUpgrade u .starting
  | .starting => m.quit
  | .leaving [] => m.leave u []
  | .leaving (img :: imgs) =>
    match m.kept img u.current with
    | some image => (m.tag img (some image)).leave u imgs
    | none => m.leave u imgs

/-- A command of a rollback ends. -/
def Rollback.go (m : Machine) (r : Rollback) : Machine :=
  match r.pc with
  | .unzipping =>
    if r.backup.code.isSome then m.atRollback r (.tagging builtImages false) else m.quit
  | .tagging [] missing => m.atRollback r (if missing then .rebuilding else .removing)
  | .tagging (img :: imgs) missing =>
    match m.kept img r.backup.version with
    | some image => (m.tag img (some image)).atRollback r (.tagging imgs missing)
    | none => m.atRollback r (.tagging imgs true)
  | .rebuilding => { m with images := fun _ ↦ r.backup.code }.atRollback r .removing
  | .removing => { m with code := .absent }.atRollback r .moving
  | .moving =>
    { m with
      code :=
        match r.backup.code with
        | some version => .release version
        | none => .absent }.atRollback r .starting
  | .starting => m.restore r

/-! ## Commands that fail -/

def Upgrade.fail (m : Machine) (u : Upgrade) : Machine :=
  match u.pc with
  | .starting => m.quit
  -- the trap goes on
  | .leaving [] => m.leave u []
  | .leaving (_ :: imgs) => m.leave u imgs
  | _ => m.stop u

def Rollback.fail (m : Machine) (r : Rollback) : Machine :=
  match r.pc with
  | .starting => m.restore r
  | _ => m.quit

/-- `docker image inspect` fails, which a script takes for an image that is not there. -/
def miss (m : Machine) : Process → Option Machine
  | .upgrade u =>
    match u.pc with
    | .keeping (_ :: imgs) => some (m.atUpgrade u (.keeping imgs))
    | .leaving (_ :: imgs) => some (m.leave u imgs)
    | _ => none
  | .rollback r =>
    match r.pc with
    | .tagging (_ :: imgs) _ => some (m.atRollback r (.tagging imgs true))
    | _ => none

/-! ## Steps -/

/-- Whether a build is under way, and of which release. -/
def Process.building : Process → Option Version
  | .upgrade u => if u.pc = .building then some u.new else none
  | .rollback r => if r.pc = .rebuilding then r.backup.code else none

/-- Whether the folder is being removed, or moved. -/
def Process.isSwitching : Process → Bool
  | .upgrade u => u.pc = .removing || u.pc = .moving
  | .rollback r => r.pc = .removing || r.pc = .moving

def step (m : Machine) : Event → Option Machine
  | .upgrade new stamp =>
    if m.process.isNone ∧ m.code ≠ .absent then
      some { m with
        process := some (.upgrade { current := m.code.version, new, stamp, before := m.snapshot }) }
    else none
  | .rollback version stamp =>
    if m.process.isNone then
      (m.backups.find? fun b ↦ b.version = version ∧ b.stamp = stamp).map fun backup ↦
        { m with process := some (.rollback { backup }) }
    else none
  | .go =>
    m.process.map fun
      | .upgrade u => u.go m
      | .rollback r => r.go m
  | .fail =>
    m.process.map fun
      | .upgrade u => u.fail m
      | .rollback r => r.fail m
  | .miss => m.process.bind (miss m)
  | .built img =>
    (m.process.bind Process.building).map fun version ↦ m.tag img (some version)
  | .partly version =>
    (m.process.filter Process.isSwitching).map fun _ ↦ { m with code := .part version }
  | .kill => m.process.map fun _ ↦ m.quit

/-! ## What is asked of the script -/

/-- The folder is one release, whose images the normal tags name, and whose migrations the database
has. -/
def Machine.isWhole (m : Machine) : Bool :=
  match m.code with
  | .release version =>
    (builtImages.all fun img ↦ m.images img = some version) && version ∈ m.migrated
  | .part _ | .absent => false

structure Machine.Runnable (m : Machine) : Prop where
  whole : m.process.isNone → m.isWhole = true
  /-- When the script has said that nothing was changed, nothing was. -/
  unchanged : ∀ p ∈ m.unchanged, p.2 = p.1
  /-- A rollback that goes to its end has put back the release that the backup is named after. -/
  restored : ∀ p ∈ m.restored, p.2 = ⟨.release p.1.version, fun _ ↦ some p.1.version⟩

/-- A host before the script is used on it. -/
structure Machine.Fresh (m : Machine) : Prop where
  whole : m.isWhole = true
  kept : ∀ img version, m.kept img version = none
  backups : m.backups = []
  process : m.process = none
  unchanged : m.unchanged = []
  restored : m.restored = []

end Shellius.Updates.Script
