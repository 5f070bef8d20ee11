import Shellius.Lib.FirstMatch
import Shellius.Net
import Shellius.Text

/-!
# Ports behind a firewall

`postureService.js` decides from the firewall rules that a host reports whether a port can be
reached.  It looks for the first rule that counts for a port, whatever the source of the
connections the rule is about.

What the reported rules mean is stated here as well: the first rule that applies to a connection
decides, and an inactive firewall decides nothing.  Which sources a rule names is said in the
language of the firewall (`Names`); a source is an address that can be reached from outside.
-/

namespace Shellius.Posture

open Lib

/-! ## What a host reports -/

inductive Proto where
  | tcp
  | udp
deriving DecidableEq

inductive Family where
  | v4
  | v6
deriving DecidableEq

inductive Action where
  | ALLOW
  | DENY
  | REJECT
  | LIMIT
deriving DecidableEq

inductive Engine where
  | ufw
  | firewalld
  | iptables
  | nftables
  | none
  | unknown
deriving DecidableEq

inductive Policy where
  | allow
  | deny
  | reject
  | unknown
deriving DecidableEq

/-- A rule.  A protocol or a family that is absent is `any`. -/
structure Rule where
  port : String
  proto : Option Proto := none
  action : Action
  /-- `from` -/
  origin : Option String := none
  family : Option Family := none

structure Firewall where
  engine : Engine
  active : Bool
  defaultIncoming : Policy := .unknown
  parsed : Bool := false
  rules : List Rule := []

/-- Where a listener was found. -/
inductive Source where
  | ss
  | docker
  | nat
deriving DecidableEq

structure Listener where
  proto : Proto
  bind : String
  port : Nat
  containerPort : Option Nat := none
  pids : Option String := none
  process : Option String := none
  ownerKind : Option String := none
  ownerName : Option String := none
  ownerDetail : Option String := none
  ownerRef : Option String := none
  ownerUser : Option String := none
  sourcePath : Option String := none
  source : Source := .ss
deriving DecidableEq

/-! ## Bind addresses -/

/-- A character that `.` does not match. -/
def isLineEnd (c : Char) : Bool := c = '\n' ∨ c = '\r' ∨ c.val = 0x2028 ∨ c.val = 0x2029

/-- `replace(/%.*$/, '')` -/
def stripZone : List Char → List Char
  | [] => []
  | c :: cs => if c = '%' ∧ ¬ cs.any isLineEnd then [] else c :: stripZone cs

def normalizeBind (bind : String) : String :=
  let b := stripZone (trim bind).toList
  let b := if b.head? = some '[' ∧ b.getLast? = some ']' then (b.drop 1).dropLast else b
  if b = ['*'] ∨ b = [] then "0.0.0.0" else .ofList b

inductive BindClass where
  | wildcard
  | loopback
  | privateNet
  | specific
deriving DecidableEq

/-- `/^172\.(1[6-9]|2[0-9]|3[01])\./` -/
def isPrivate172 (b : String) : Bool :=
  (List.range' 16 16).any fun n ↦ ("172." ++ toString n ++ ".").toList.isPrefixOf b.toList

/-- `/^(fe80:|fc|fd)/i` -/
def isPrivateV6 (b : String) : Bool :=
  ["fe80:", "fc", "fd"].any fun s ↦ s.toList.isPrefixOf (b.toList.map Char.toLower)

def bindClass (bind : String) : BindClass :=
  let b := normalizeBind bind
  if b = "0.0.0.0" ∨ b = "::" then .wildcard
  else if b = "127.0.0.1" ∨ "127.".toList <+: b.toList ∨ b = "::1" then .loopback
  else if "10.".toList <+: b.toList ∨ "192.168.".toList <+: b.toList ∨ "169.254.".toList <+: b.toList ∨
      isPrivate172 b ∨ isPrivateV6 b then .privateNet
  else .specific

/-! ## Port specifications -/

/-- `Number` of digits, if they are digits; nothing at all counts as 0. -/
def number (ds : List Char) : Option Nat := if ds.all isDecimal then some (decimalValue ds) else none

def portSpecMatches (spec : String) (port : Nat) : Bool :=
  let s := (trim spec).toList
  if s = [] ∨ ¬ s.all fun c ↦ isDecimal c ∨ c = ',' ∨ c = ':' then false
  else if ':' ∈ s then
    match s.splitOn ':' with
    | lo :: hi :: _ =>
      match number lo, number hi with
      | some lo, some hi => lo ≤ port ∧ port ≤ hi
      | _, _ => false
    | _ => false
  else if ',' ∈ s then (s.splitOn ',').any fun n ↦ number n = some port
  else number s = some port

/-! ## The verdict on a port -/

/-- `VERDICT_CAPABLE_ENGINES` -/
def verdictCapableEngines : List Engine := [.ufw, .firewalld, .none]

/-- `PARSED_ENGINES` -/
def parsedEngines : List Engine := [.iptables, .nftables]

def Firewall.usable (fw : Firewall) : Bool :=
  fw.engine ∈ verdictCapableEngines ∨ (fw.engine ∈ parsedEngines ∧ fw.parsed)

inductive Verdict where
  | ALLOW
  | DENY
  | NONE
deriving DecidableEq

def Action.verdict : Action → Verdict
  | .ALLOW | .LIMIT => .ALLOW
  | .DENY | .REJECT => .DENY

def matchPort (port : Nat) (proto : Proto) (familyFilter : Option Family) : List Rule → Verdict
  | [] => .NONE
  | rule :: rest =>
    if rule.proto ≠ none ∧ rule.proto ≠ some proto then matchPort port proto familyFilter rest
    else if familyFilter ≠ none ∧ rule.family ≠ familyFilter then
      matchPort port proto familyFilter rest
    else if ¬ portSpecMatches rule.port port then matchPort port proto familyFilter rest
    else rule.action.verdict

def Firewall.isAsymmetric (fw : Firewall) (port : Nat) (proto : Proto) : Bool :=
  let v4 := matchPort port proto (some .v4) fw.rules
  let v6 := matchPort port proto (some .v6) fw.rules
  v4 ≠ .NONE ∧ v6 ≠ .NONE ∧ v4 ≠ v6

/-! ## Reachability -/

inductive Reachability where
  | INTERNET
  | FIREWALLED
  | LAN
  | LOOPBACK
  | UNKNOWN
deriving DecidableEq

structure Reach where
  reachability : Reachability
  bindClass : BindClass
  bind : String
  dockerBypass : Bool

def Listener.isDockerPublish (l : Listener) : Bool :=
  l.source = .docker ∨ l.source = .nat ∨ l.ownerKind = some "docker-proxy"

def reachabilityFor (l : Listener) (fw : Firewall) : Reach :=
  let bind := normalizeBind l.bind
  let bc := bindClass bind
  if bc = .loopback then ⟨.LOOPBACK, bc, bind, false⟩
  else if l.isDockerPublish then
    let verdict := matchPort l.port l.proto none fw.rules
    ⟨.INTERNET, bc, bind, fw.usable ∧
      (verdict = .DENY ∨ (fw.active ∧ verdict = .NONE ∧ fw.defaultIncoming = .deny))⟩
  else if bc = .privateNet then ⟨.LAN, bc, bind, false⟩
  else if ¬ fw.usable then ⟨.UNKNOWN, bc, bind, false⟩
  else if fw.isAsymmetric l.port l.proto then ⟨.UNKNOWN, bc, bind, false⟩
  else
    match matchPort l.port l.proto none fw.rules with
    | .ALLOW => ⟨.INTERNET, bc, bind, false⟩
    | .DENY => ⟨.FIREWALLED, bc, bind, false⟩
    | .NONE =>
      if fw.active ∧ fw.defaultIncoming = .deny then ⟨.FIREWALLED, bc, bind, false⟩
      else ⟨.INTERNET, bc, bind, false⟩

/-! ## What the rules mean -/

/-- A port, or the ports between two; a bound that is missing is the least or the greatest port. -/
def itemCovers (item : List Char) (port : Nat) : Bool :=
  match item.splitOn ':' with
  | [n] => n ≠ [] ∧ number n = some port
  | [lo, hi] =>
    match number lo, number hi with
    | some m, some n => m ≤ port ∧ (hi = [] ∨ port ≤ n)
    | _, _ => false
  | _ => false

def specCovers (spec : String) (port : Nat) : Bool :=
  (spec.toList.splitOn ',').any (itemCovers · port)

def Listener.family (l : Listener) : Family := if ':' ∈ (normalizeBind l.bind).toList then .v6 else .v4

def Rule.denies (r : Rule) : Bool := r.action = .DENY ∨ r.action = .REJECT

section

variable {α : Type} (names : Option String → α → Bool)

def Rule.appliesTo (l : Listener) (r : Rule) (src : α) : Bool :=
  (r.proto = none ∨ r.proto = some l.proto) ∧ (r.family = none ∨ r.family = some l.family) ∧
    specCovers r.port l.port ∧ names r.origin src

def Policy.denies (p : Policy) : Bool := p = .deny ∨ p = .reject

/-- Connections from a source to a listener are denied. -/
def Firewall.blocks (fw : Firewall) (l : Listener) (src : α) : Bool :=
  fw.active ∧ deniedByRules (Rule.appliesTo names l) Rule.denies fw.defaultIncoming.denies fw.rules src

end

/-! ## What the code counts -/

/-- A rule counts for a port, whichever sources it is about. -/
def Rule.counts (l : Listener) (r : Rule) (_ : Unit) : Bool :=
  (r.proto = none ∨ r.proto = some l.proto) ∧ portSpecMatches r.port l.port

variable {l : Listener} {fw : Firewall} {rules : List Rule}

theorem Action.verdict_eq (r : Rule) : r.action.verdict = if r.denies then .DENY else .ALLOW := by
  unfold Rule.denies
  cases r.action with
  | ALLOW => rfl
  | DENY => rfl
  | REJECT => rfl
  | LIMIT => rfl

theorem matchPort_eq (l : Listener) (rules : List Rule) :
    matchPort l.port l.proto none rules =
      match firstMatch (Rule.counts l) Rule.denies rules () with
      | none => .NONE
      | some true => .DENY
      | some false => .ALLOW := by
  induction rules with
  | nil => rfl
  | cons r rules ih =>
    rw [matchPort, firstMatch_cons, Action.verdict_eq, ih]
    have hcounts : r.counts l () = true ↔
        (r.proto = none ∨ r.proto = some l.proto) ∧ portSpecMatches r.port l.port = true := by
      unfold Rule.counts
      exact decide_eq_true_iff
    by_cases hproto : r.proto ≠ none ∧ r.proto ≠ some l.proto
    · have hnot : ¬ r.counts l () = true := fun h ↦ (hcounts.mp h).1.elim hproto.1 hproto.2
      rw [if_pos hproto, if_neg hnot]
    · rw [if_neg hproto, if_neg (fun h ↦ h.1 rfl)]
      by_cases hport : portSpecMatches r.port l.port = true
      · have hyes : r.counts l () = true :=
          hcounts.mpr ⟨or_iff_not_imp_left.mpr fun h ↦ not_not.mp fun h' ↦ hproto ⟨h, h'⟩, hport⟩
        rw [if_neg (not_not.mpr hport), if_pos hyes]
        cases r.denies with
        | true => rfl
        | false => rfl
      · have hnot : ¬ r.counts l () = true := fun h ↦ hport (hcounts.mp h).2
        rw [if_pos hport, if_neg hnot]

/-- A listener that connections from outside may reach, unless a firewall blocks them. -/
def Listener.isPublic (l : Listener) : Prop :=
  bindClass (normalizeBind l.bind) = .wildcard ∨ bindClass (normalizeBind l.bind) = .specific

/-- The verdict is not that a listener is behind the firewall: it is not public or published by
Docker, nothing is concluded from the rules, the first rule that counts allows, or none counts and
the default is not known to deny. -/
def Withheld (fw : Firewall) (l : Listener) : Prop :=
  ¬ l.isPublic ∨ l.isDockerPublish ∨ ¬ fw.usable ∨ fw.isAsymmetric l.port l.proto ∨
    (∃ pre r post, fw.rules = pre ++ r :: post ∧ r.counts l () ∧ r.denies = false ∧
      ∀ r' ∈ pre, r'.counts l () = false) ∨
    ((∀ r ∈ fw.rules, r.counts l () = false) ∧ ¬ (fw.active ∧ fw.defaultIncoming = .deny))

theorem reachabilityFor_of_not_isPublic (h : ¬ l.isPublic) :
    (reachabilityFor l fw).reachability ≠ .FIREWALLED := by
  unfold Listener.isPublic at h
  unfold reachabilityFor
  dsimp only
  cases hclass : bindClass (normalizeBind l.bind) with
  | wildcard => exact absurd (.inl hclass) h
  | specific => exact absurd (.inr hclass) h
  | loopback => simp
  | privateNet => by_cases hdocker : l.isDockerPublish = true <;> simp [hdocker]

theorem reachabilityFor_of_isPublic (h : l.isPublic) :
    (reachabilityFor l fw).reachability =
      if l.isDockerPublish then .INTERNET
      else if ¬ fw.usable then .UNKNOWN
      else if fw.isAsymmetric l.port l.proto then .UNKNOWN
      else
        match firstMatch (Rule.counts l) Rule.denies fw.rules () with
        | some false => .INTERNET
        | some true => .FIREWALLED
        | none => if fw.active ∧ fw.defaultIncoming = .deny then .FIREWALLED else .INTERNET := by
  unfold Listener.isPublic at h
  have hloopback : bindClass (normalizeBind l.bind) ≠ .loopback := by
    rintro hclass
    rw [hclass] at h
    simp at h
  have hprivate : bindClass (normalizeBind l.bind) ≠ .privateNet := by
    rintro hclass
    rw [hclass] at h
    simp at h
  unfold reachabilityFor
  dsimp only
  rw [if_neg hloopback, if_neg hprivate, matchPort_eq]
  obtain hverdict | ⟨b, hverdict⟩ := Option.eq_none_or_eq_some
    (firstMatch (Rule.counts l) Rule.denies fw.rules ())
  · rw [hverdict]
    split_ifs <;> rfl
  · rw [hverdict]
    cases b with
    | true => split_ifs <;> rfl
    | false => split_ifs <;> rfl

theorem reachabilityFor_ne_firewalled_iff :
    (reachabilityFor l fw).reachability ≠ .FIREWALLED ↔ Withheld fw l := by
  unfold Withheld
  by_cases hpublic : l.isPublic
  · rw [reachabilityFor_of_isPublic hpublic, ← firstMatch_eq_some_iff,
      ← @firstMatch_eq_none_iff _ _ (Rule.counts l) Rule.denies]
    by_cases hdocker : l.isDockerPublish = true
    · simp [hdocker]
    by_cases husable : fw.usable = true
    · by_cases hasymmetric : fw.isAsymmetric l.port l.proto = true
      · simp [hdocker, husable, hasymmetric]
      · rw [if_neg hdocker, if_neg (not_not.mpr husable), if_neg hasymmetric]
        obtain hverdict | ⟨b, hverdict⟩ := Option.eq_none_or_eq_some
          (firstMatch (Rule.counts l) Rule.denies fw.rules ())
        · by_cases hdeny : fw.active = true ∧ fw.defaultIncoming = .deny
          · simp [hverdict, hpublic, hdocker, husable, hasymmetric, hdeny]
          · simp [hverdict, hdeny]
        · cases b with
          | true => simp [hverdict, hpublic, hdocker, husable, hasymmetric]
          | false => simp [hverdict]
    · simp [hdocker, husable]
  · exact ⟨fun _ ↦ .inl hpublic, fun _ ↦ reachabilityFor_of_not_isPublic hpublic⟩

/-- The rules block every connection: those that allow are shadowed, and the default denies what is
left over, or nothing is. -/
def Blocking {α : Type} (names : Option String → α → Bool) (fw : Firewall) (l : Listener) : Prop :=
  fw.active = true ∧ Shadowed (Rule.appliesTo names l) Rule.denies fw.rules ∧
    (fw.defaultIncoming.denies = true ∨
      ∀ src, ∃ r ∈ fw.rules, r.denies = true ∧ r.appliesTo names l src = true)

theorem blocks_forall_iff {α : Type} [Nonempty α] {names : Option String → α → Bool} :
    (∀ src, fw.blocks names l src = true) ↔ Blocking names fw l := by
  unfold Blocking Firewall.blocks
  rw [← deniedByRules_forall_iff]
  simp only [decide_eq_true_eq]
  constructor
  · intro h
    exact ⟨(h (Classical.arbitrary α)).1, fun src ↦ (h src).2⟩
  · rintro ⟨hactive, h⟩ src
    exact ⟨hactive, h src⟩

/-- **When a port that is said to be behind the firewall is.**  The verdict is right exactly if it
is withheld, or an active firewall blocks every source: each source that a rule allows is denied by
a rule before it, and the default denies, or the rules that deny name every source. -/
theorem firewalled_iff {α : Type} [Nonempty α] (names : Option String → α → Bool) (fw : Firewall)
    (l : Listener) :
    ((reachabilityFor l fw).reachability = .FIREWALLED → ∀ src, fw.blocks names l src = true) ↔
      Withheld fw l ∨ Blocking names fw l := by
  rw [blocks_forall_iff, ← reachabilityFor_ne_firewalled_iff]
  exact imp_iff_not_or

/-! ## A port that one source is denied -/

def namesOne (origin : Option String) (src : String) : Bool :=
  origin = none ∨ origin = some "" ∨ origin = some "Anywhere" ∨ origin = some src

def sshListener : Listener := { proto := .tcp, bind := "0.0.0.0", port := 22 }

def denyOne : Firewall where
  engine := .ufw
  active := true
  defaultIncoming := .allow
  rules := [{ port := "22", proto := some .tcp, action := .DENY, origin := some "203.0.113.7" }]

def allowNone : Firewall where
  engine := .ufw
  active := true
  defaultIncoming := .deny
  rules := [{ port := "22", proto := some .tcp, action := .DENY }]

theorem firewalled_iff_allowNone : allowNone.blocks namesOne sshListener "198.51.100.1" = true := by
  have hshadowed : Shadowed (Rule.appliesTo namesOne sshListener) Rule.denies allowNone.rules := by
    intro pre r post hrules hr
    have hmem : r ∈ allowNone.rules := by
      rw [hrules]
      simp
    rw [List.mem_singleton.mp hmem] at hr
    cases hr
  have hblocking : Blocking namesOne allowNone sshListener := ⟨rfl, hshadowed, .inl rfl⟩
  have hfirewalled : (reachabilityFor sshListener allowNone).reachability = .FIREWALLED := by
    decide +kernel
  exact (firewalled_iff namesOne allowNone sshListener).mpr (.inr hblocking) hfirewalled _

/-- One source is denied, and the port is said to be behind the firewall. -/
theorem reachabilityFor_denyOne :
    sshListener.isPublic ∧ (reachabilityFor sshListener denyOne).reachability = .FIREWALLED ∧
      denyOne.blocks namesOne sshListener "198.51.100.1" = false ∧
      (reachabilityFor sshListener { allowNone with active := false }).reachability = .FIREWALLED ∧
      ({ allowNone with active := false } : Firewall).blocks namesOne sshListener "198.51.100.1" =
        false := by
  refine ⟨.inl ?_, ?_, ?_, ?_, ?_⟩
  all_goals decide +kernel

end Shellius.Posture
