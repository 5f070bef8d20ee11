import Shellius.Lib.Json
import Shellius.Workspace.Invariant

/-!
# Restoring a stored workspace

The workspace is kept in the storage of the browser, and on load `sanitize` makes a workspace of
whatever is found there.  The older versions stored one layout, which `migrateLegacyLayout` turns
into a group first.

What is found is any JSON.  Identifiers are kept as they are found, and a tab is any scalar that
counts as true.
-/

namespace Shellius.Layout

open Lib

/-! ## Groups that are read -/

/-- The identifier of a tab, which is never empty. -/
abbrev StoredTab := {s : Scalar // s.truthy = true}

/-- Where the tabs of a group stand. -/
structure Split where
  mode : Mode
  panes : List (Option StoredTab)
  focusedPane : Nat

structure StoredGroup extends Split where
  id : Json
  name : String

structure StoredWorkspace where
  groups : List StoredGroup
  activeTabId : Scalar

def Split.tabs (s : Split) : List StoredTab := s.panes.reduceOption

/-- A mode of `SPLIT_MODES` by its name. -/
def splitMode : Json → Option Mode
  | .scalar (.string "split-right") => some .splitRight
  | .scalar (.string "split-down") => some .splitDown
  | .scalar (.string "grid") => some .grid
  | _ => none

def modeName : Mode → String
  | .single => "single"
  | .splitRight => "split-right"
  | .splitDown => "split-down"
  | .grid => "grid"

/-- `groupId`; the stamp of a call is its time and its number. -/
def madeId (stamp : Nat → String) (n : Nat) : String := "grp_" ++ stamp n

/-- `nextWorkspaceName`, from the names in use. -/
def nextName (used : List String) : String :=
  firstFree used fun n ↦ if n = 0 then "Workspace" else "Workspace " ++ toString (n + 1)

/-- `compactGroup`, as far as it is about the panes. -/
def compactSplit (s : Split) : Option Split :=
  if s.tabs.length ≤ 1 then none
  else if s.mode = .grid ∧ s.tabs.length = 2 then
    let focusedTab := s.panes[s.focusedPane]?.join
    some ⟨.splitRight, s.tabs.map some, (max 0 (indexOf (s.tabs.map some) focusedTab)).toNat⟩
  else some s

/-- `compactGroup` -/
def compactStored (g : StoredGroup) : Option StoredGroup :=
  (compactSplit g.toSplit).map fun s ↦ { g with toSplit := s }

section

variable (stamp : Nat → String) (alive : List Scalar)

/-- The tab of a pane, if it is open and in none of the groups before. -/
def freeTab (seen : List StoredTab) : Json → Option StoredTab
  | .scalar s =>
    if h : s.truthy = true then if s ∈ alive ∧ ⟨s, h⟩ ∉ seen then some ⟨s, h⟩ else none
    else none
  | .array _ | .object _ => none

/-- The panes of a group that are restored. -/
def freePanes (seen : List StoredTab) (mode : Mode) (g : Json) : List (Option StoredTab) :=
  (List.range (paneCount mode)).map fun i ↦
    ((g.field "panes").bind (Json.element i)).bind (freeTab alive seen)

/-- The pane in focus, if there is such a pane. -/
def readFocus (mode : Mode) : Option Json → Nat
  | some (.scalar (.number q)) =>
    if q.den = 1 ∧ 0 ≤ q.num ∧ q.num < paneCount mode then q.num.toNat else 0
  | _ => 0

/-- The name of a group that is not blank. -/
def storedName : Option Json → Option String
  | some (.scalar (.string s)) => if trim s ≠ "" then some s else none
  | _ => none

/-- The first 60 code units of a name without the blanks around it. -/
def cutName (name : String) : String := String.ofList (slice 60 (trim name).toList)

/-- The identifier of a group, if it has one. -/
def storedId (g : Json) : Option Json := (g.field "id").filter Json.truthy

/-- A group as it is found, with the tabs that are free. -/
def readGroup (made : Nat) (seen : List StoredTab) (used : List String) (mode : Mode) (g : Json) :
    StoredGroup where
  id := (storedId g).getD (.scalar (.string (madeId stamp made)))
  name := ((storedName (g.field "name")).map cutName).getD (nextName used)
  mode := mode
  panes := freePanes alive seen mode g
  focusedPane := readFocus mode (g.field "focusedPane")

/-- How many identifiers have been made after a group. -/
def madeAfter (made : Nat) (g : Json) : Nat := if (storedId g).isSome then made else made + 1

/-- The loop of `sanitize` over the groups. -/
def restoreFrom :
    List Json → Nat → List StoredTab → List StoredGroup → List StoredGroup
  | [], _, _, groups => groups
  | g :: rest, made, seen, groups =>
    match (g.field "mode").bind splitMode with
    | none => restoreFrom rest made seen groups
    | some mode =>
      match compactStored
          (readGroup stamp alive made seen (groups.map fun g ↦ g.name) mode g) with
      | none => restoreFrom rest (madeAfter made g) seen groups
      | some compacted =>
        restoreFrom rest (madeAfter made g) (seen ++ compacted.tabs) (groups ++ [compacted])

/-- The last tab, if its identifier is not empty. -/
def lastTab : Scalar :=
  match alive.getLast? with
  | some s => if s.truthy then s else .null
  | none => .null

/-- The tab that is active: the one that was, or else the last one. -/
def restoredActive : Option Json → Scalar
  | some (.scalar s) => if s ∈ alive then s else lastTab alive
  | _ => lastTab alive

/-- The place of the split on the screen: `findGroup` -/
def onScreen (groups : List StoredGroup) (activeTabId : Scalar) : Option Nat :=
  if activeTabId.truthy then
    groups.findIdx? fun g ↦ g.panes.any fun p ↦ p.any fun t ↦ t.val = activeTabId
  else none

/-- `pruneOffscreen` -/
def pruneStored (groups : List StoredGroup) (activeTabId : Scalar) : List StoredGroup :=
  (groups.zipIdx.filter fun p ↦
    onScreen groups activeTabId = some p.2 ∨ 2 ≤ p.1.tabs.length).map Prod.fst

/-- What the loop of `sanitize` goes through, if it can. -/
def storedGroups : Json → Option (List Json)
  | .scalar .null => none
  | ws => Json.iterate (ws.field "groups")

/-- `sanitize`; it fails where the groups cannot be gone through. -/
def restore (ws : Json) : Option StoredWorkspace :=
  (storedGroups ws).map fun gs ↦
    let groups := restoreFrom stamp alive gs 0 [] []
    let activeTabId := restoredActive alive (ws.field "activeTabId")
    ⟨pruneStored groups activeTabId, activeTabId⟩

end

/-! ## Workspaces as they are stored -/

def StoredGroup.toJson (g : StoredGroup) : Json :=
  .object [("id", g.id), ("name", .scalar (.string g.name)),
    ("mode", .scalar (.string (modeName g.mode))),
    ("panes", .array (g.panes.map fun p ↦ .scalar (p.elim .null Subtype.val))),
    ("focusedPane", .scalar (.number g.focusedPane))]

def StoredWorkspace.toJson (ws : StoredWorkspace) : Json :=
  .object [("groups", .array (ws.groups.map StoredGroup.toJson)),
    ("activeTabId", .scalar ws.activeTabId)]

/-- `migrateLegacyLayout`; what was active may be missing. -/
def migrateLegacyLayout (stamp : Nat → String) (layout : Json) (activeTabId : Option Json) : Json :=
  match (layout.field "mode").bind splitMode, layout.field "panes" with
  | some mode, some (.array panes) =>
    let group := Json.object [("id", .scalar (.string (madeId stamp 0))),
      ("name", .scalar (.string "Workspace")), ("mode", .scalar (.string (modeName mode))),
      ("panes", .array panes), ("focusedPane", .scalar (.number 0))]
    let inGroup := activeTabId.any fun a ↦ a.truthy && panes.any (Json.same a)
    let active := if inGroup then activeTabId.getD (.scalar .null)
      else ((activeTabId.filter Json.truthy).or (panes.find? Json.truthy)).getD (.scalar .null)
    .object [("groups", .array [group]), ("activeTabId", active)]
  | _, _ =>
    .object (("groups", .array []) :: (activeTabId.map fun a ↦ ("activeTabId", a)).toList)

end Shellius.Layout
