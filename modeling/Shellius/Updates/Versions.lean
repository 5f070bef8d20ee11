import Shellius.Schema
import Shellius.Text

/-!
# Versions

`updateCheckService.compareVersions` and `instanceUpdateService.normalizeVersion`: what is taken to
be a version, and which of two is the newer one.  `Number` on a string of digits is a parameter,
since a double does not hold every number there is.
-/

namespace Shellius.Updates

/-! ## Reading a version -/

/-- A character of a pre-release suffix: `[0-9A-Za-z.-]`. -/
def isPre (c : Char) : Bool := c.isAlphanum || c = '.' || c = '-'

/-- `\d+`: the digits that a text begins with, and what follows them. -/
def digits (cs : List Char) : Option (List Char × List Char) :=
  match cs.span Char.isDigit with
  | ([], _) => none
  | (ds, rest) => some (ds, rest)

def dot : List Char → Option (List Char)
  | '.' :: cs => some cs
  | _ => none

/-- `(?:-([0-9A-Za-z.-]+))?`: a suffix, if there is one, and what follows it. -/
def suffix : List Char → Option (List Char) × List Char
  | '-' :: cs =>
    match cs.span isPre with
    | ([], _) => (none, '-' :: cs)
    | (pre, rest) => (some pre, rest)
  | cs => (none, cs)

/-- What the groups of the pattern match, and what follows the match. -/
structure Match where
  major : List Char
  minor : List Char
  patch : List Char
  pre : Option (List Char)
  rest : List Char
deriving DecidableEq

/-- `/^(\d+)\.(\d+)\.(\d+)(?:-([0-9A-Za-z.-]+))?/` -/
def scan (cs : List Char) : Option Match := do
  let (major, cs) ← digits cs
  let cs ← dot cs
  let (minor, cs) ← digits cs
  let cs ← dot cs
  let (patch, cs) ← digits cs
  let (pre, rest) := suffix cs
  return { major, minor, patch, pre, rest }

/-- `/^v/`, dropped. -/
def dropV : List Char → List Char
  | 'v' :: cs => cs
  | cs => cs

/-- Plain semver, optionally v-prefixed.  Nothing else is a version. -/
def normalizeVersion (input : String) : Except ApiError String :=
  let raw := dropV (trim input).toList
  match scan raw with
  | some ⟨_, _, _, _, []⟩ => .ok (String.ofList raw)
  | _ => .error ⟨400, "Version must be plain semver, for example 2.1.0", none⟩

/-! ## Comparing two -/

/-- The numbers of a version, and its suffix. -/
structure Version where
  nums : Nat × Nat × Nat
  pre : Option String

section

variable (number : List Char → Nat)

def parse (v : String) : Option Version :=
  (scan (dropV (trim v).toList)).map fun m ↦
    ⟨(number m.major, number m.minor, number m.patch), m.pre.map String.ofList⟩

/-- A pre-release is older than the release it precedes. -/
def comparePre : Option String → Option String → Ordering
  | some _, none => .lt
  | none, some _ => .gt
  | some p, some q => if p < q then .lt else if q < p then .gt else .eq
  | none, none => .eq

/-- `none` stands for `NaN`: at least one of them is no version. -/
def compareVersions (a b : String) : Option Ordering := do
  let pa ← parse number a
  let pb ← parse number b
  return ((compare pa.nums.1 pb.nums.1).then
    ((compare pa.nums.2.1 pb.nums.2.1).then (compare pa.nums.2.2 pb.nums.2.2))).then
      (comparePre pa.pre pb.pre)

/-- True when `latest` is a version worth telling somebody about. -/
def isNewer (latest current : String) : Bool := compareVersions number latest current = some .gt

/-! ## No version is newer than itself -/

end

example : normalizeVersion " v2.1.0-rc.1 " = .ok "2.1.0-rc.1" := by decide +kernel

end Shellius.Updates
