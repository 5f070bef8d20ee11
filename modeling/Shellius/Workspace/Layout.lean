import Mathlib.Data.List.ReduceOption
import Shellius.Lib.Checks
import Shellius.Lib.Pool
import Shellius.Text

/-!
# The layout of the workspace

`workspaceLayout.js` of the web interface.  A workspace has terminal tabs, some of which
are in *split groups* that show up to four of them at once.  What is on the screen follows
from the active tab: its group, or the tab on its own.

The reducers take whatever the interface hands them: a tab that has been closed, a group
that is gone, an index of a pane that the split on the screen does not have.
-/

namespace Shellius.Layout

open Lib

/-! ## Arrays -/

/-- An array of panes, each with a tab or empty.  What is written at a negative index is a
property of the array and none of its elements. -/
structure Panes (τ : Type*) where
  cells : List (Option τ)
  stray : List (Int × Option τ) := []
deriving DecidableEq

def indexOf {α : Type*} [DecidableEq α] (l : List α) (a : α) : Int :=
  if a ∈ l then l.idxOf a else -1

namespace Panes

variable {τ : Type*}

/-- `panes[i]` -/
def get (p : Panes τ) (i : Int) : Option τ :=
  if i < 0 then (p.stray.lookup i).join else (p.cells[i.toNat]?).join

/-- `panes[i] = v`; an array grows up to the index. -/
def put (p : Panes τ) (i : Int) (v : Option τ) : Panes τ :=
  if i < 0 then { p with stray := (i, v) :: p.stray }
  else if i.toNat < p.cells.length then { p with cells := p.cells.set i.toNat v }
  else { p with cells := p.cells ++ List.replicate (i.toNat - p.cells.length) none ++ [v] }

/-- `panes.filter(Boolean)` -/
def members (p : Panes τ) : List τ := p.cells.reduceOption

variable [DecidableEq τ]

/-- `panes.map((p) => (p === tabId ? null : p))` -/
def without (p : Panes τ) (tab : τ) : Panes τ :=
  ⟨p.cells.map fun c ↦ if c = some tab then none else c, []⟩

end Panes

/-! ## Workspaces -/

inductive Mode where
  | single
  | splitRight
  | splitDown
  | grid
deriving DecidableEq

/-- `PANE_COUNTS` -/
def paneCount : Mode → Nat
  | .single => 1
  | .splitRight | .splitDown => 2
  | .grid => 4

/-- What `groupId` makes: the time and the number of the call, which are printed one after
the other. -/
structure GroupId where
  time : Nat
  seq : Nat
deriving DecidableEq

structure Group (τ : Type*) where
  id : GroupId
  name : String
  mode : Mode
  panes : Panes τ
  focusedPane : Int
deriving DecidableEq

structure Workspace (τ : Type*) where
  groups : List (Group τ) := []
  activeTabId : Option τ := none

/-- What `currentView` returns. -/
structure View (τ : Type*) where
  group : Option (Group τ)
  mode : Mode
  panes : Panes τ
  focusedPane : Int

section

variable {τ : Type*}

def Group.members (g : Group τ) : List τ := g.panes.members

def nextWorkspaceName (groups : List (Group τ)) : String :=
  firstFree (groups.map fun g ↦ g.name) fun n ↦
    if n = 0 then "Workspace" else "Workspace " ++ toString (n + 1)

def replaceGroup (groups : List (Group τ)) (group : Group τ) : List (Group τ) :=
  groups.map fun g ↦ if g.id = group.id then group else g

variable [DecidableEq τ]

def findGroup (groups : List (Group τ)) (tabId : Option τ) : Option (Group τ) :=
  tabId.bind fun tab ↦ groups.find? fun g ↦ some tab ∈ g.panes.cells

def currentView (ws : Workspace τ) : View τ :=
  match findGroup ws.groups ws.activeTabId with
  | some group => ⟨some group, group.mode, group.panes, group.focusedPane⟩
  | none => ⟨none, .single, ⟨[ws.activeTabId], []⟩, 0⟩

def compactGroup (group : Group τ) : Option (Group τ) :=
  let members := group.members
  if members.length ≤ 1 then none
  else if group.mode = .grid ∧ members.length = 2 then
    let focusedTab := group.panes.get group.focusedPane
    some { group with
      mode := .splitRight
      panes := ⟨members.map some, []⟩
      focusedPane := max 0 (indexOf (members.map some) focusedTab) }
  else some group

/-- What `detachTab` makes of one group. -/
def detachFrom (tabId : τ) (keepGroupId : Option GroupId) (g : Group τ) : Option (Group τ) :=
  if some tabId ∈ g.panes.cells then
    let next := { g with panes := g.panes.without tabId }
    if some g.id = keepGroupId then some next else compactGroup next
  else some g

def detachTab (groups : List (Group τ)) (tabId : τ) (keepGroupId : Option GroupId) :
    List (Group τ) :=
  groups.filterMap (detachFrom tabId keepGroupId)

def pruneOffscreen (groups : List (Group τ)) (activeTabId : Option τ) : List (Group τ) :=
  groups.filter fun g ↦ findGroup groups activeTabId = some g ∨ 2 ≤ g.members.length

/-! ## Showing and placing tabs -/

/-- `selectTab`, without filling an empty pane. -/
def showTab (ws : Workspace τ) : Option τ → Workspace τ
  | none => ws
  | some tab =>
    let groups := match findGroup ws.groups (some tab) with
      | some g => replaceGroup ws.groups
          { g with focusedPane := indexOf g.panes.cells (some tab) }
      | none => ws.groups
    ⟨pruneOffscreen groups (some tab), some tab⟩

/-- `placeInPane` with a tab, in a pane of the split on screen. -/
def fillPane (ws : Workspace τ) (group : Group τ) (tab : τ) (paneIndex : Nat) : Workspace τ :=
  let occupant := (group.panes.cells[paneIndex]?).join
  let oldIdx := group.panes.cells.idxOf (some tab)
  if some tab ∈ group.panes.cells ∧ oldIdx = paneIndex then showTab ws (some tab)
  else
    -- a tab of the split changes places with the occupant
    let panes := if some tab ∈ group.panes.cells then group.panes.cells.set oldIdx occupant
      else group.panes.cells
    let next := { group with panes := ⟨panes.set paneIndex (some tab), []⟩, focusedPane := paneIndex }
    ⟨replaceGroup (detachTab ws.groups tab (some group.id)) next, some tab⟩

/-- `placeInPane` without a tab: the pane is closed. -/
def closePane (ws : Workspace τ) (group : Group τ) (paneIndex : Nat) : Workspace τ :=
  let occupant := (group.panes.cells[paneIndex]?).join
  let next := { group with panes := ⟨group.panes.cells.set paneIndex none, []⟩, focusedPane := paneIndex }
  match compactGroup next with
  | some compacted =>
    showTab ⟨replaceGroup ws.groups compacted, none⟩
      ((compacted.panes.get compacted.focusedPane).or compacted.members.head?)
  | none =>
    showTab ⟨ws.groups.filter fun g ↦ g.id ≠ group.id, none⟩ (next.members.head?.or occupant)

def placeInPane (ws : Workspace τ) (tabId : Option τ) (paneIndex : Int) : Workspace τ :=
  match (currentView ws).group with
  | none => showTab ws tabId
  | some group =>
    if paneIndex < 0 ∨ group.panes.cells.length ≤ paneIndex then ws
    else match tabId with
      | some tab => fillPane ws group tab paneIndex.toNat
      | none => closePane ws group paneIndex.toNat

def selectTab (ws : Workspace τ) (tabId : τ) (fillEmptyPane : Bool) : Workspace τ :=
  match (currentView ws).group with
  | some group =>
    if fillEmptyPane ∧ group.panes.get group.focusedPane = none ∧
        some tabId ∉ group.panes.cells then
      placeInPane ws (some tabId) group.focusedPane
    else showTab ws (some tabId)
  | none => showTab ws (some tabId)

def addTab (ws : Workspace τ) (tabId : τ) (focus : Bool) : Workspace τ :=
  match (currentView ws).group with
  | some group =>
    if focus then
      if group.panes.get group.focusedPane = none then
        placeInPane ws (some tabId) group.focusedPane
      else showTab ws (some tabId)
    else ws
  | none =>
    if focus then showTab ws (some tabId)
    else if ws.activeTabId.isSome then ws else { ws with activeTabId := some tabId }

def removeTab (ws : Workspace τ) (tabId : τ) (remainingTabIds : List τ) : Workspace τ :=
  let before := findGroup ws.groups (some tabId)
  let groups := detachTab ws.groups tabId none
  if ws.activeTabId ≠ some tabId then ⟨groups, ws.activeTabId⟩
  else
    let survivor := before.bind fun b ↦ groups.find? fun g ↦ g.id = b.id
    let next := match survivor, before with
      | some g, _ => (g.panes.get g.focusedPane).or g.members.head?
      | none, some b => b.members.find? fun p ↦ p ≠ tabId
      | none, none => none
    showTab ⟨groups, none⟩ (next.or remainingTabIds.getLast?)

/-! ## Changing the layout -/

/-- The split on screen in another mode: its tabs in order, as many as fit, and the one in
focus among them. -/
def reflow (group : Group τ) (mode : Mode) : Group τ :=
  let count := paneCount mode
  let members := group.members
  let focusedTab := group.panes.get group.focusedPane
  let fit := match focusedTab with
    | some tab =>
      if tab ∈ members.take count then members.take count
      else (members.take count).take (count - 1) ++ [tab]
    | none => members.take count
  let panes := (List.range count).map fun i ↦ fit[i]?
  let focusedPane := if focusedTab.isSome then indexOf panes focusedTab
    else (min members.length (count - 1) : Nat)
  { group with mode, panes := ⟨panes, []⟩, focusedPane := max 0 focusedPane }

/-- `setLayoutMode`; without a mode it is one that is not known. -/
def setLayoutMode (ws : Workspace τ) (mode : Option Mode) (newId : GroupId) : Workspace τ :=
  match mode with
  | none => ws
  | some mode =>
    if mode = (currentView ws).mode then ws
    else match (currentView ws).group with
      | none =>
        match ws.activeTabId with
        | none => ws
        | some tab =>
          let panes := some tab :: List.replicate (paneCount mode - 1) none
          { ws with
            groups := ws.groups ++
              [⟨newId, nextWorkspaceName ws.groups, mode, ⟨panes, []⟩, 1⟩] }
      | some group =>
        if mode = .single then
          ⟨ws.groups.filter fun g ↦ g.id ≠ group.id,
            (group.panes.get group.focusedPane).or (group.members.head?.or ws.activeTabId)⟩
        else { ws with groups := replaceGroup ws.groups (reflow group mode) }

def focusPane (ws : Workspace τ) (paneIndex : Int) : Workspace τ :=
  match (currentView ws).group with
  | none => ws
  | some group =>
    if paneIndex = group.focusedPane then ws
    else ⟨replaceGroup ws.groups { group with focusedPane := paneIndex },
      (group.panes.get paneIndex).or ws.activeTabId⟩

/-! ## Dropping tabs -/

inductive Zone where
  | left
  | right
  | top
  | bottom
  | center
deriving DecidableEq

def goesIntoPane (mode : Mode) (zone : Zone) : Bool :=
  mode = .grid ∨ zone = .center ∨
    mode = .splitRight ∧ (zone = .left ∨ zone = .right) ∨
    mode = .splitDown ∧ (zone = .top ∨ zone = .bottom)

/-- A split of two with a tab dropped across it: the hovered pane is split in two. -/
def promote (group : Group τ) (tabId : τ) (paneIndex : Int) (zone : Zone) : Group τ :=
  let base := group.panes.without tabId
  let otherIndex : Int := if paneIndex = 0 then 1 else 0
  let hovered := base.get paneIndex
  let other := base.get otherIndex
  let grid : Panes τ := ⟨[none, none, none, none], []⟩
  let draggedFirst : Bool := if group.mode = .splitRight then zone = .top else zone = .left
  let first := if draggedFirst then some tabId else hovered
  let second := if draggedFirst then hovered else some tabId
  if group.mode = .splitRight then
    { group with
      mode := .grid
      panes := ((grid.put paneIndex first).put (2 + paneIndex) second).put otherIndex other
      focusedPane := if draggedFirst then paneIndex else 2 + paneIndex }
  else
    { group with
      mode := .grid
      panes := ((grid.put (paneIndex * 2) first).put (paneIndex * 2 + 1) second).put
        (otherIndex * 2) other
      focusedPane := if draggedFirst then paneIndex * 2 else paneIndex * 2 + 1 }

def dropTab (ws : Workspace τ) (tabId : τ) (paneIndex : Int) (zone : Zone) (newId : GroupId) :
    Workspace τ :=
  match (currentView ws).group with
  | none =>
    match ws.activeTabId with
    | none => showTab ws (some tabId)
    | some current =>
      if current = tabId ∨ zone = .center then showTab ws (some tabId)
      else
        let mode : Mode := if zone = .left ∨ zone = .right then .splitRight else .splitDown
        let first : Bool := zone = .left ∨ zone = .top
        let panes := if first then [some tabId, some current] else [some current, some tabId]
        let groups := detachTab (detachTab ws.groups tabId none) current none
        ⟨groups ++ [⟨newId, nextWorkspaceName groups, mode, ⟨panes, []⟩,
          indexOf panes (some tabId)⟩], some tabId⟩
  | some group =>
    if goesIntoPane group.mode zone then placeInPane ws (some tabId) paneIndex
    else
      ⟨replaceGroup (detachTab ws.groups tabId (some group.id)) (promote group tabId paneIndex zone),
        some tabId⟩

inductive Direction where
  | right
  | down
deriving DecidableEq

def splitWith (ws : Workspace τ) (tabId : τ) (direction : Direction) (newId : GroupId) :
    Workspace τ :=
  let zone : Zone := if direction = .right then .right else .bottom
  match (currentView ws).group with
  | none =>
    if ws.activeTabId = some tabId ∨ ws.activeTabId = none then
      let mode : Mode := if direction = .right then .splitRight else .splitDown
      let groups := detachTab ws.groups tabId none
      ⟨groups ++ [⟨newId, nextWorkspaceName groups, mode, ⟨[some tabId, none], []⟩, 1⟩], some tabId⟩
    else dropTab ws tabId 0 zone newId
  | some group =>
    if some tabId ∈ group.panes.cells then
      dropTab ws tabId (indexOf group.panes.cells (some tabId)) zone newId
    else dropTab ws tabId group.focusedPane zone newId

def removeFromSplit (ws : Workspace τ) (tabId : τ) : Workspace τ :=
  if (findGroup ws.groups (some tabId)).isSome then
    { ws with groups := detachTab ws.groups tabId none }
  else ws

def ungroup (ws : Workspace τ) (id : GroupId) : Workspace τ :=
  match ws.groups.find? fun g ↦ g.id = id with
  | none => ws
  | some g =>
    ⟨ws.groups.filter fun x ↦ x.id ≠ id,
      if ws.activeTabId.any fun tab ↦ some tab ∈ g.panes.cells then
        (g.panes.get g.focusedPane).or ws.activeTabId
      else ws.activeTabId⟩

/-! ## Restoring a workspace -/

/-- The first 60 code units of a name; a character that does not fit is left out. -/
def shortened (name : String) : String :=
  String.ofList ((name.toList.inits.filter fun cs ↦ utf16Length (.ofList cs) ≤ 60).getLast?.getD [])

def validFocus (mode : Mode) (focusedPane : Int) : Int :=
  if 0 ≤ focusedPane ∧ focusedPane < paneCount mode then focusedPane else 0

def cleaned (alive seen : List τ) (groups : List (Group τ)) (g : Group τ) : Group τ where
  id := g.id
  name := if trim g.name ≠ "" then shortened (trim g.name) else nextWorkspaceName groups
  mode := g.mode
  panes := ⟨(List.range (paneCount g.mode)).map fun i ↦
    (g.panes.cells[i]?).join.filter fun p ↦ p ∈ alive ∧ p ∉ seen, []⟩
  focusedPane := validFocus g.mode g.focusedPane

/-- The loop of `sanitize` over the groups. -/
def sanitizeGroups (alive : List τ) : List (Group τ) → List τ → List (Group τ) → List (Group τ)
  | [], _, groups => groups
  | g :: rest, seen, groups =>
    if g.mode = .single then sanitizeGroups alive rest seen groups
    else match compactGroup (cleaned alive seen groups g) with
      | none => sanitizeGroups alive rest seen groups
      | some compacted =>
        sanitizeGroups alive rest (seen ++ compacted.members) (groups ++ [compacted])

def sanitize (ws : Workspace τ) (tabIds : List τ) : Workspace τ :=
  let groups := sanitizeGroups tabIds ws.groups [] []
  let activeTabId := if ws.activeTabId.any (· ∈ tabIds) then ws.activeTabId else tabIds.getLast?
  ⟨pruneOffscreen groups activeTabId, activeTabId⟩

/-! ## Runs -/

/-- A call of a reducer. -/
inductive Action (τ : Type*) where
  | addTab (tabId : τ) (focus : Bool)
  | removeTab (tabId : τ) (remainingTabIds : List τ)
  | selectTab (tabId : τ) (fillEmptyPane : Bool)
  | detachTab (tabId : τ) (keepGroupId : Option GroupId)
  | placeInPane (tabId : Option τ) (paneIndex : Int)
  | setLayoutMode (mode : Option Mode)
  | focusPane (paneIndex : Int)
  | dropTab (tabId : τ) (paneIndex : Int) (zone : Zone)
  | splitWith (tabId : τ) (direction : Direction)
  | removeFromSplit (tabId : τ)
  | ungroup (id : GroupId)
  | sanitize (tabIds : List τ)

/-- The workspace after a call; `newId` is what `groupId` makes should it be asked. -/
def reduce (ws : Workspace τ) (newId : GroupId) : Action τ → Workspace τ
  | .addTab tabId focus => addTab ws tabId focus
  | .removeTab tabId remainingTabIds => removeTab ws tabId remainingTabIds
  | .selectTab tabId fillEmptyPane => selectTab ws tabId fillEmptyPane
  | .detachTab tabId keepGroupId => { ws with groups := detachTab ws.groups tabId keepGroupId }
  | .placeInPane tabId paneIndex => placeInPane ws tabId paneIndex
  | .setLayoutMode mode => setLayoutMode ws mode newId
  | .focusPane paneIndex => focusPane ws paneIndex
  | .dropTab tabId paneIndex zone => dropTab ws tabId paneIndex zone newId
  | .splitWith tabId direction => splitWith ws tabId direction newId
  | .removeFromSplit tabId => removeFromSplit ws tabId
  | .ungroup id => ungroup ws id
  | .sanitize tabIds => sanitize ws tabIds

/-- A workspace, and how often `groupId` has been called. -/
structure Session (τ : Type*) where
  ws : Workspace τ := {}
  seq : Nat := 0

/-- A reducer is called at some time; an identifier that is made is in the result. -/
def step (s : Session τ) (e : Nat × Action τ) : Option (Session τ) :=
  let newId : GroupId := ⟨e.1, s.seq + 1⟩
  let ws := reduce s.ws newId e.2
  some ⟨ws, if newId ∈ ws.groups.map (fun g ↦ g.id) then s.seq + 1 else s.seq⟩

end

end Shellius.Layout
