import Mathlib.Data.List.SplitOn
import Shellius.Keystore.Vault
import Shellius.Net

/-!
# Rows of an upload

A row of a bulk import names its columns; a CSV file gives texts, a JSON file may give flags and
lists as well, and a number is the text of it.  The helpers at the top of `importService` make of a
cell what the services take.
-/

namespace Shellius.Import

open Lib

/-- What stands in a column. -/
inductive Cell
  | text (s : String)
  | flag (b : Bool)
  | items (l : List String)

/-- A cell as JavaScript tests it. -/
def Cell.isTruthy : Cell → Bool
  | .text s => s ≠ ""
  | .flag b => b
  | .items _ => true

abbrev Raw := Dict String Cell

/-- `raw.a || raw.b || …` -/
def Raw.either (raw : Raw) : List String → Option Cell
  | [] => none
  | [column] => raw.get column
  | column :: columns =>
    if (raw.get column).any Cell.isTruthy then raw.get column else Raw.either raw columns

structure Surroundings where
  keystore : Keystore.Surroundings
  toLowerCase_empty : keystore.toLowerCase "" = ""
  toUpperCase : String → String
  /-- `{ equals, mode: 'insensitive' }` and what `resolveRole` takes. -/
  rules : TextRules
  /-- `JSON.parse` of a text, and the strings of the array or the entries of the object it is, if
  it is one. -/
  parseArray : String → Option (List String)
  parseObject : String → Option (List (String × String))
  /-- The `n`-th id that `cuid()` gives out. -/
  cuid : Nat → Id

/-! ## Coercions -/

section

variable (env : Surroundings)

def str : Option Cell → String
  | none => ""
  | some (.text s) => trim s
  | some (.flag b) => if b then "true" else "false"
  | some (.items l) => trim (String.intercalate "," l)

def lower (v : Option Cell) : String := env.keystore.toLowerCase (str v)

/-- `lower`, of a text. -/
def lowerText (s : String) : String := env.keystore.toLowerCase (trim s)

/-- `str(v) || undefined` -/
def text (v : Option Cell) : Option String := truthy (some (str v))

def bool (v : Option Cell) (dflt : Bool := false) : Bool :=
  match v with
  | none => dflt
  | some (.text "") => dflt
  | some (.flag b) => b
  | v => lower env v ∈ ["true", "1", "yes", "y", "on"]

def int (v : Option Cell) : Option Int := parseInt (str v).toList

/-- The parts of a text between some characters, without what is blank. -/
def parts (isSeparator : Char → Bool) (s : String) : List String :=
  ((s.toList.splitOnP isSeparator).map fun part ↦ trim (String.ofList part)).filter (· ≠ "")

def list (v : Option Cell) : List String :=
  match v with
  | none => []
  | some (.items l) => (l.map trim).filter (· ≠ "")
  | v =>
    let s := str v
    match (if s.toList.head? = some '[' then env.parseArray s else none) with
    | some l => (l.map trim).filter (· ≠ "")
    | none => parts (fun c ↦ c = ';' || c = ',' || c = '|') s

def labelsToArray (v : Option Cell) : List String :=
  match v with
  | some (.text s) =>
    match (if (trim s).toList.head? = some '\x7b' then env.parseObject (trim s) else none) with
    | some entries => entries.map fun e ↦ e.1 ++ ":" ++ e.2
    | none => list env v
  | v => list env v

end

/-- Nothing stands in a cell. -/
def isBlank (v : Option Cell) : Bool :=
  match v with
  | none => true
  | some (.text s) => trim s = ""
  | some (.items l) => l = []
  | some (.flag _) => false

/-- Nothing stands in any of the columns that mean the same. -/
def Raw.omits (raw : Raw) (columns : List String) : Bool :=
  columns.all fun column ↦ isBlank (raw.get column)

/-! ## What is left out -/

section

variable {env : Surroundings} {raw : Raw} {v : Option Cell} {column : String}

theorem str_of_isBlank (h : isBlank v = true) : str v = "" := by
  unfold isBlank at h
  split at h
  · rfl
  · exact of_decide_eq_true h
  · rw [of_decide_eq_true h]
    decide
  · cases h

theorem text_of_isBlank (h : isBlank v = true) : text v = none := by
  unfold text
  rw [str_of_isBlank h]
  rfl

theorem Raw.omits_singleton (h : raw.omits [column] = true) : isBlank (raw.get column) = true :=
  (Bool.and_eq_true_iff.mp h).1

theorem Raw.either_of_omits {columns : List String} (h : raw.omits columns = true) :
    isBlank (raw.either columns) = true := by
  induction columns with
  | nil => rfl
  | cons column columns ih =>
    obtain ⟨hcolumn, hrest⟩ := Bool.and_eq_true_iff.mp h
    cases columns with
    | nil => exact hcolumn
    | cons next columns =>
      unfold Raw.either
      split
      · exact hcolumn
      · exact ih hrest

theorem int_of_isBlank (h : isBlank v = true) : int v = none := by
  unfold int
  rw [str_of_isBlank h]
  rfl

theorem lower_of_isBlank (h : isBlank v = true) : lower env v = "" := by
  unfold lower
  rw [str_of_isBlank h]
  exact env.toLowerCase_empty

theorem bool_of_isBlank (h : isBlank v = true) : bool env v = false := by
  unfold bool
  split
  · rfl
  · rfl
  · cases h
  · rw [lower_of_isBlank h]
    decide

theorem list_of_isBlank (h : isBlank v = true) : list env v = [] := by
  unfold isBlank at h
  split at h
  · rfl
  · rename_i s
    show (match (if (trim s).toList.head? = some '[' then env.parseArray (trim s) else none) with
      | some l => (l.map trim).filter (· ≠ "")
      | none => parts _ (trim s)) = []
    rw [of_decide_eq_true h, if_neg (by decide)]
    show parts _ "" = []
    decide
  · rw [of_decide_eq_true h]
    rfl
  · cases h

theorem labelsToArray_of_isBlank (h : isBlank v = true) : labelsToArray env v = [] := by
  unfold labelsToArray
  split
  · rename_i s
    have hs : trim s = "" := of_decide_eq_true h
    rw [hs]
    exact list_of_isBlank h
  · exact list_of_isBlank h

end

end Shellius.Import
