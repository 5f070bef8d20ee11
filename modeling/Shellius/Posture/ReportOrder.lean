import Shellius.Posture.Findings

/-!
# Findings in any order

A report lists the listeners and the services of a host in the order in which the collector came
across them.  `computeFindings` makes one entry of all listeners of a port: the worst reachability
and the first service win, and a docker bypass anywhere counts.  Which of these are there does not
depend on the order.

The owner does.  A label that says no more than that the owner is unknown, or that some proxy of
docker has the port, is replaced by a better one; where no listener of the port has a better one the
first of these two stays, and only one of them makes a finding.
-/

namespace Shellius.Posture

open Lib

/-- What a finding is told by. -/
structure Mark where
  code : FindingCode
  key : String
  severity : Severity
deriving DecidableEq

def Finding.mark (f : Finding) : Mark := ⟨f.code, f.key, f.severity⟩

def marks (snapshot : Facts) (settings : Settings) : List Mark :=
  (computeFindings snapshot settings).findings.map Finding.mark

/-! ## The entry of a port -/

def Enriched.portKey (l : Enriched) : Proto × Nat := (l.proto, l.port)

def Agg.portKey (a : Agg) : Proto × Nat := (a.proto, a.port)

/-- The entry that a listener begins. -/
def Agg.start (l : Enriched) : Agg :=
  ⟨l.proto, l.port, l.reachability, l.bind, l.ownerLabel, l.service, false⟩

def aggOf : List Enriched → Option Agg
  | [] => none
  | l :: ls => some ((l :: ls).foldl (fun a l ↦ a.merge l) (.start l))

section

variable {a : Agg} {l : Enriched} {ls : List Enriched} {k : Proto × Nat}

theorem Agg.portKey_merge : (a.merge l).portKey = a.portKey := rfl

theorem aggOf_concat :
    aggOf (ls ++ [l]) = some (((aggOf ls).getD (.start l)).merge l) := by
  cases ls with
  | nil => rfl
  | cons l' ls =>
    simp only [List.cons_append, aggOf, Option.getD_some]
    rw [← List.cons_append, List.foldl_concat]

theorem aggregate_concat : aggregate (ls ++ [l]) =
    modify Agg.portKey l.portKey (fun a ↦ a.merge l)
      (if (lookup Agg.portKey l.portKey (aggregate ls)).isSome then aggregate ls
        else aggregate ls ++ [.start l]) := by
  have hany : ((aggregate ls).any fun a ↦ a.proto = l.proto ∧ a.port = l.port) =
      (lookup Agg.portKey l.portKey (aggregate ls)).isSome := by
    rw [lookup, List.isSome_find?]
    simp only [Agg.portKey, Enriched.portKey, Prod.mk.injEq]
  rw [aggregate, List.foldl_concat, ← aggregate]
  dsimp only
  rw [hany]
  rfl

theorem nodup_aggregate : ((aggregate ls).map Agg.portKey).Nodup := by
  induction ls using List.reverseRecOn with
  | nil => exact List.nodup_nil
  | append_singleton ls l ih =>
    rw [aggregate_concat, map_modify fun _ _ _ ↦ Agg.portKey_merge]
    split
    · exact ih
    · rename_i hnew
      rw [Option.not_isSome_iff_eq_none, lookup_eq_none] at hnew
      rw [List.map_append, List.nodup_append]
      refine ⟨ih, List.nodup_singleton _, fun k hk k' hk' ↦ ?_⟩
      obtain ⟨a, ha, rfl⟩ := List.mem_map.mp hk
      rw [List.map_singleton, List.mem_singleton] at hk'
      exact hk' ▸ hnew a ha

theorem lookup_aggregate :
    lookup Agg.portKey k (aggregate ls) = aggOf (ls.filter fun l ↦ l.portKey = k) := by
  induction ls using List.reverseRecOn with
  | nil => rfl
  | append_singleton ls l ih =>
    rw [aggregate_concat, lookup_modify (f := Agg.merge l) fun (a : Agg) (h : a.portKey = _) ↦ h,
      List.filter_append]
    by_cases hk : k = l.portKey
    · subst hk
      rw [if_pos rfl, List.filter_singleton, decide_eq_true rfl, cond_true, aggOf_concat, ← ih]
      split
      · rename_i hold
        obtain ⟨a, ha⟩ := Option.isSome_iff_exists.mp hold
        rw [ha]
        rfl
      · rename_i hnew
        rw [Option.not_isSome_iff_eq_none.mp hnew, lookup_append_singleton,
          Option.not_isSome_iff_eq_none.mp hnew, Option.none_or]
        exact congrArg (Option.map (Agg.merge l)) (if_pos rfl)
    · have hother : (decide (l.portKey = k)) = false := decide_eq_false fun h ↦ hk h.symm
      rw [if_neg hk, List.filter_singleton, hother, cond_false, List.append_nil, ← ih]
      split
      · rfl
      · have hstart : ¬ (Agg.start l).portKey = k := fun h ↦ hk h.symm
        rw [lookup_append_singleton, if_neg hstart, Option.or_none]

theorem mem_aggregate :
    a ∈ aggregate ls ↔ aggOf (ls.filter fun l ↦ l.portKey = a.portKey) = some a := by
  rw [← lookup_aggregate]
  exact ⟨lookup_of_mem nodup_aggregate, fun h ↦ (lookup_spec h).1⟩

end

/-! ## What the entry says -/

/-- The label of a listener whose owner nobody knows. -/
def isUnknownLabel (label : String) : Bool := "unknown(".toList <+: label.toList

theorem isPlaceholder_of_isUnknown {label : String} (h : isUnknownLabel label = true) :
    isPlaceholderOwnerLabel label = true :=
  decide_eq_true (.inr (.inl (of_decide_eq_true h)))

theorem Reachability.rank_injective : Function.Injective Reachability.rank := by
  intro r r' h
  cases r <;> cases r' <;> first | rfl | cases h

def IsWorst (rs : List Reachability) (r : Reachability) : Prop :=
  r ∈ rs ∧ ∀ r' ∈ rs, r'.rank ≤ r.rank

theorem IsWorst.unique {rs rs' : List Reachability} {r r' : Reachability} (h : IsWorst rs r)
    (h' : IsWorst rs' r') (hsame : ∀ r, r ∈ rs ↔ r ∈ rs') : r = r' :=
  Reachability.rank_injective
    (Nat.le_antisymm (h'.2 r ((hsame r).mp h.1)) (h.2 r' ((hsame r').mpr h'.1)))

section

variable {a a' : Agg} {l : Enriched} {ls ls' : List Enriched}

theorem isWorst_foldl : IsWorst (a.reachability :: ls.map Enriched.reachability)
    (ls.foldl (fun a l ↦ a.merge l) a).reachability := by
  induction ls generalizing a with
  | nil => exact ⟨List.mem_cons_self, fun r hr ↦
      Nat.le_of_eq (congrArg Reachability.rank (List.mem_singleton.mp hr))⟩
  | cons l ls ih =>
    obtain ⟨hmem, hworst⟩ := ih (a := a.merge l)
    rw [List.foldl_cons]
    -- the entry has what is worse of the two
    have hstep : (a.merge l).reachability = a.reachability ∧ l.reachability.rank ≤ a.reachability.rank ∨
        (a.merge l).reachability = l.reachability ∧ a.reachability.rank ≤ l.reachability.rank := by
      by_cases hlt : a.reachability.rank < l.reachability.rank
      · exact .inr ⟨by simp [Agg.merge, hlt], Nat.le_of_lt hlt⟩
      · exact .inl ⟨by simp [Agg.merge, hlt], Nat.le_of_not_lt hlt⟩
    have hle := hworst _ List.mem_cons_self
    constructor
    · rcases List.mem_cons.mp hmem with h | h
      · rw [h]
        rcases hstep with ⟨hs, -⟩ | ⟨hs, -⟩ <;> rw [hs] <;> simp
      · exact List.mem_cons_of_mem _ (List.mem_cons_of_mem _ h)
    · intro r hr
      rcases List.mem_cons.mp hr with rfl | hr
      · rcases hstep with ⟨hs, -⟩ | ⟨hs, h⟩ <;> rw [hs] at hle <;> omega
      · rcases List.mem_cons.mp hr with rfl | hr
        · rcases hstep with ⟨hs, h⟩ | ⟨hs, -⟩ <;> rw [hs] at hle <;> omega
        · exact hworst r (List.mem_cons_of_mem _ hr)

theorem service_foldl : (ls.foldl (fun a l ↦ a.merge l) a).service.isSome =
    (a.service.isSome || ls.any fun l ↦ l.service.isSome) := by
  induction ls generalizing a with
  | nil => simp
  | cons l ls ih =>
    have hstep : (a.merge l).service.isSome = (a.service.isSome || l.service.isSome) := by
      rw [show (a.merge l).service = (a.service <|> l.service) from rfl]
      cases a.service <;> rfl
    rw [List.foldl_cons, ih, hstep, List.any_cons, Bool.or_assoc]

theorem dockerBypass_foldl : (ls.foldl (fun a l ↦ a.merge l) a).dockerBypass =
    (a.dockerBypass || ls.any Enriched.dockerBypass) := by
  induction ls generalizing a with
  | nil => simp
  | cons l ls ih =>
    have hstep : (a.merge l).dockerBypass = (a.dockerBypass || l.dockerBypass) := by
      simp [Agg.merge]
    rw [List.foldl_cons, ih, hstep, List.any_cons, Bool.or_assoc]

theorem isUnknown_merge : isUnknownLabel (a.merge l).ownerLabel = true ↔
    isUnknownLabel a.ownerLabel = true ∧ isPlaceholderOwnerLabel l.ownerLabel = true := by
  have hlabel : (a.merge l).ownerLabel =
      if isPlaceholderOwnerLabel a.ownerLabel ∧ ¬ isPlaceholderOwnerLabel l.ownerLabel then
        l.ownerLabel else a.ownerLabel := rfl
  rw [hlabel]
  split
  · rename_i hbetter
    exact ⟨fun h ↦ absurd (isPlaceholder_of_isUnknown h) hbetter.2, fun h ↦ absurd h.2 hbetter.2⟩
  · rename_i hkeep
    refine ⟨fun h ↦ ⟨h, ?_⟩, And.left⟩
    by_contra hl
    exact hkeep ⟨isPlaceholder_of_isUnknown h, hl⟩

theorem isUnknown_foldl : isUnknownLabel (ls.foldl (fun a l ↦ a.merge l) a).ownerLabel = true ↔
    isUnknownLabel a.ownerLabel = true ∧
      ∀ l ∈ ls, isPlaceholderOwnerLabel l.ownerLabel = true := by
  induction ls generalizing a with
  | nil => simp
  | cons l ls ih => rw [List.foldl_cons, ih, isUnknown_merge, List.forall_mem_cons, and_assoc]

/-- What the entry of a port says whatever the order of its listeners. -/
structure Agg.Sums (ls : List Enriched) (a : Agg) : Prop where
  reachability : IsWorst (ls.map Enriched.reachability) a.reachability
  service : a.service.isSome = ls.any fun l ↦ l.service.isSome
  dockerBypass : a.dockerBypass = ls.any Enriched.dockerBypass

theorem sums_of_aggOf (h : aggOf ls = some a) : a.Sums ls := by
  cases ls with
  | nil => cases h
  | cons l ls =>
    obtain rfl := Option.some.inj h
    refine ⟨?_, ?_, ?_⟩
    · obtain ⟨hmem, hworst⟩ := @isWorst_foldl (.start l) (l :: ls)
      rw [show (Agg.start l).reachability = l.reachability from rfl] at hmem hworst
      refine ⟨?_, fun r hr ↦ hworst r (List.mem_cons_of_mem _ hr)⟩
      rcases List.mem_cons.mp hmem with h | h
      · exact h ▸ List.mem_cons_self
      · exact h
    · rw [service_foldl, show (Agg.start l).service = l.service from rfl, List.any_cons,
        ← Bool.or_assoc, Bool.or_self]
    · rw [dockerBypass_foldl, show (Agg.start l).dockerBypass = false from rfl, Bool.false_or]

theorem isUnknown_of_aggOf (h : aggOf (l :: ls) = some a) :
    isUnknownLabel a.ownerLabel = true ↔ isUnknownLabel l.ownerLabel = true ∧
      ∀ l' ∈ l :: ls, isPlaceholderOwnerLabel l'.ownerLabel = true := by
  obtain rfl := Option.some.inj h
  exact @isUnknown_foldl (.start l) (l :: ls)

end

/-! ## Marks -/

def portMark (k : Proto × Nat) (code : FindingCode) : Mark :=
  ⟨code, findingKey code (some k.1.named) (some k.2), code.severity⟩

def reachabilityCodes (reachability : Reachability) (service expected : Bool) : List FindingCode :=
  match reachability, service with
  | .INTERNET, true => [.SENSITIVE_PORT_EXPOSED]
  | .INTERNET, false => if expected then [.EXPECTED_PUBLIC] else [.PORT_EXPOSED]
  | .FIREWALLED, true => [.SENSITIVE_PORT_WILDCARD_BIND]
  | .LAN, true => [.SENSITIVE_PORT_LAN]
  | .UNKNOWN, _ => [.FIREWALL_STATE_UNKNOWN]
  | _, _ => []

def Agg.codes (expectedPublicPorts : List ExpectedPort) (a : Agg) : List FindingCode :=
  if a.dockerBypass then [.DOCKER_FIREWALL_BYPASS]
  else
    reachabilityCodes a.reachability a.service.isSome
      (isExpectedPublic a.port a.proto expectedPublicPorts).isSome ++
      if isUnknownLabel a.ownerLabel then [.UNATTRIBUTED_LISTENER] else []

section

variable {firewall : Firewall} {expectedPublicPorts : List ExpectedPort} {a : Agg}
  {services services' : List Service} {seenPorts seenPorts' : List Nat} {rule : Rule}

theorem marks_reachabilityFindings :
    (reachabilityFindings firewall expectedPublicPorts a).map Finding.mark =
      (reachabilityCodes a.reachability a.service.isSome
        (isExpectedPublic a.port a.proto expectedPublicPorts).isSome).map (portMark a.portKey) := by
  unfold reachabilityFindings
  cases a.service with
  | some service => cases a.reachability <;> rfl
  | none =>
    cases a.reachability with
    | INTERNET => cases isExpectedPublic a.port a.proto expectedPublicPorts <;> rfl
    | LAN | FIREWALLED | UNKNOWN | LOOPBACK => rfl

theorem marks_portFindings : (portFindings firewall expectedPublicPorts a).map Finding.mark =
    (a.codes expectedPublicPorts).map (portMark a.portKey) := by
  unfold portFindings Agg.codes
  split
  · rfl
  · have hunknown : (isPlaceholderOwnerLabel a.ownerLabel = true ∧
        "unknown(".toList <+: a.ownerLabel.toList) ↔ isUnknownLabel a.ownerLabel = true :=
      ⟨fun h ↦ decide_eq_true h.2, fun h ↦ ⟨isPlaceholder_of_isUnknown h, of_decide_eq_true h⟩⟩
    rw [List.map_append, List.map_append, marks_reachabilityFindings]
    congr 1
    simp only [hunknown]
    split <;> rfl

theorem isSome_stoppedOwnerOf (h : services.Perm services') (proto : Option Proto) (port : Nat) :
    (stoppedOwnerOf services proto port).isSome = (stoppedOwnerOf services' proto port).isSome := by
  rw [Bool.eq_iff_iff, stoppedOwnerOf, stoppedOwnerOf, List.find?_isSome, List.find?_isSome]
  have hmem := fun svc ↦ (h.filter fun svc : Service ↦ ¬ svc.running).mem_iff (a := svc)
  simp only [hmem]

theorem mark_staleFinding (h : services.Perm services') (port : Nat) :
    (staleFinding services rule port).mark = (staleFinding services' rule port).mark := by
  have hsome := isSome_stoppedOwnerOf h rule.proto port
  unfold staleFinding
  cases hs : stoppedOwnerOf services rule.proto port with
  | none =>
    rw [hs, Option.isSome_none, eq_comm, Option.isSome_eq_false_iff,
      Option.isNone_iff_eq_none] at hsome
    rw [hsome]
  | some owner =>
    rw [hs, Option.isSome_some, eq_comm, Option.isSome_iff_exists] at hsome
    obtain ⟨owner', hs'⟩ := hsome
    rw [hs']
    rfl

theorem marks_ruleFindings (h : services.Perm services')
    (hseen : ∀ port, port ∈ seenPorts ↔ port ∈ seenPorts') :
    (ruleFindings services seenPorts rule).map Finding.mark =
      (ruleFindings services' seenPorts' rule).map Finding.mark := by
  unfold ruleFindings
  split
  · rfl
  · dsimp only
    split
    · rfl
    · simp only [hseen, List.map_map]
      exact List.map_congr_left fun port _ ↦ mark_staleFinding h port

end

/-! ## Order -/

def SamePort (l l' : Listener) : Prop := l.proto = l'.proto ∧ l.port = l'.port

instance (l l' : Listener) : Decidable (SamePort l l') := inferInstanceAs (Decidable (_ ∧ _))

/-- A port that has an unknown owner for one listener and a proxy of docker for another, and nothing
better, and that no docker bypass is about. -/
def Contested (snapshot : Facts) (l l' : Listener) : Prop :=
  SamePort l l' ∧ isUnknownLabel (ownerLabelFor l) = true ∧
    isUnknownLabel (ownerLabelFor l') = false ∧
    ∀ l'' ∈ snapshot.listeners, SamePort l l'' →
      isPlaceholderOwnerLabel (ownerLabelFor l'') = true ∧
        (reachabilityFor l'' snapshot.firewall).dockerBypass = false

instance (snapshot : Facts) (l l' : Listener) : Decidable (Contested snapshot l l') :=
  inferInstanceAs (Decidable (_ ∧ _))

/-- The findings of a report are told by the same marks in whatever order it lists its listeners
and its services. -/
def OrderFree (snapshot : Facts) (settings : Settings) : Prop :=
  ∀ listeners services, listeners.Perm snapshot.listeners → services.Perm snapshot.services →
    ∀ m, m ∈ marks { snapshot with listeners, services } settings ↔ m ∈ marks snapshot settings

section

variable {g g' : List Enriched} {a a' : Agg} {expectedPublicPorts : List ExpectedPort}

/-- The listeners of a port leave no doubt about its owner. -/
def Settled (g : List Enriched) : Prop :=
  (∃ l ∈ g, l.dockerBypass = true) ∨ (∃ l ∈ g, isPlaceholderOwnerLabel l.ownerLabel = false) ∨
    ∀ l ∈ g, ∀ l' ∈ g, isUnknownLabel l.ownerLabel = isUnknownLabel l'.ownerLabel

theorem isUnknown_congr (hperm : g.Perm g') (h : aggOf g = some a) (h' : aggOf g' = some a')
    (hsettled : Settled g) (hbypass : a.dockerBypass = false) :
    isUnknownLabel a.ownerLabel = isUnknownLabel a'.ownerLabel := by
  cases g with
  | nil => cases h
  | cons l ls =>
    cases g' with
    | nil => cases h'
    | cons l' ls' =>
      rw [Bool.eq_iff_iff, isUnknown_of_aggOf h, isUnknown_of_aggOf h']
      rcases hsettled with ⟨l₀, hl₀, hon⟩ | ⟨l₀, hl₀, hbetter⟩ | hsame
      · rw [(sums_of_aggOf h).dockerBypass, List.any_eq_false] at hbypass
        exact absurd hon (hbypass l₀ hl₀)
      · constructor
        · rintro ⟨-, hall⟩
          rw [hall l₀ hl₀] at hbetter
          cases hbetter
        · rintro ⟨-, hall⟩
          rw [hall l₀ (hperm.mem_iff.mp hl₀)] at hbetter
          cases hbetter
      · rw [hsame l List.mem_cons_self l' (hperm.mem_iff.mpr List.mem_cons_self)]
        simp only [hperm.mem_iff]

theorem codes_congr (hperm : g.Perm g') (hkey : a.portKey = a'.portKey) (h : aggOf g = some a)
    (h' : aggOf g' = some a') (hsettled : Settled g) :
    a.codes expectedPublicPorts = a'.codes expectedPublicPorts := by
  have hs := sums_of_aggOf h
  have hs' := sums_of_aggOf h'
  have hreach : a.reachability = a'.reachability :=
    hs.reachability.unique hs'.reachability fun r ↦ (hperm.map Enriched.reachability).mem_iff
  have hservice : a.service.isSome = a'.service.isSome := by
    rw [hs.service, hs'.service, hperm.any_eq]
  have hbypass : a.dockerBypass = a'.dockerBypass := by
    rw [hs.dockerBypass, hs'.dockerBypass, hperm.any_eq]
  obtain ⟨hproto, hport⟩ := Prod.mk.inj hkey
  unfold Agg.codes
  rw [← hbypass, ← hreach, ← hservice, ← hproto, ← hport]
  split
  · rfl
  · rename_i hoff
    rw [isUnknown_congr hperm h h' hsettled (Bool.not_eq_true _ ▸ hoff)]

end

section

variable {snapshot : Facts} {settings : Settings}

/-- `computeFindings`, the ports that are expected to be public -/
def Settings.expected (settings : Settings) : List ExpectedPort :=
  settings.serverExpectedPorts.map (fun r ↦ { r with scope := some "server" }) ++
    settings.expectedPublicPorts

def Facts.enriched (snapshot : Facts) : List Enriched :=
  snapshot.listeners.map (enrich snapshot.firewall)

theorem mem_marks {m : Mark} : m ∈ marks snapshot settings ↔
    (∃ a ∈ aggregate snapshot.enriched,
      m ∈ (a.codes settings.expected).map (portMark a.portKey)) ∨
    (snapshot.firewall.usable = true ∧ ∃ rule ∈ snapshot.firewall.rules,
      m ∈ (ruleFindings snapshot.services (snapshot.enriched.map (·.port)) rule).map
        Finding.mark) ∨
    m ∈ (engineFindings snapshot.firewall).map Finding.mark := by
  simp only [marks, computeFindings, List.map_append, List.mem_append, List.map_flatMap,
    List.mem_flatMap, marks_portFindings]
  rw [or_assoc]
  refine or_congr Iff.rfl (or_congr ?_ Iff.rfl)
  split
  · rename_i husable
    simp only [husable, true_and, List.map_flatMap, List.mem_flatMap]
    rfl
  · rename_i husable
    simp [husable]

theorem portMark_injective {k k' : Proto × Nat} {code code' : FindingCode}
    (h : portMark k code = portMark k' code') : k = k' ∧ code = code' := by
  obtain ⟨hcode, hproto, hport⟩ := findingKey_injective (congrArg Mark.key h)
  refine ⟨Prod.ext ?_ (Option.some.inj hport), hcode⟩
  have hnamed := Option.some.inj hproto
  revert hnamed
  cases k.1 <;> cases k'.1 <;> intro hnamed <;> first | rfl | cases hnamed

theorem mem_filter_enriched {k : Proto × Nat} {e : Enriched} :
    e ∈ snapshot.enriched.filter (fun e ↦ e.portKey = k) ↔
      ∃ l ∈ snapshot.listeners, (l.proto, l.port) = k ∧ enrich snapshot.firewall l = e := by
  rw [List.mem_filter, Facts.enriched, List.mem_map, decide_eq_true_eq]
  constructor
  · rintro ⟨⟨l, hl, rfl⟩, hk⟩
    exact ⟨l, hl, hk, rfl⟩
  · rintro ⟨l, hl, hk, rfl⟩
    exact ⟨⟨l, hl, rfl⟩, hk⟩

theorem enrich_ownerLabel (firewall : Firewall) (l : Listener) :
    (enrich firewall l).ownerLabel = ownerLabelFor l := by rw [enrich]

theorem enrich_dockerBypass (firewall : Firewall) (l : Listener) :
    (enrich firewall l).dockerBypass = (reachabilityFor l firewall).dockerBypass := by rw [enrich]

theorem samePort_iff {l l' : Listener} {k : Proto × Nat} (h : (l.proto, l.port) = k) :
    SamePort l l' ↔ (l'.proto, l'.port) = k := by
  rw [← h, Prod.mk.injEq]
  exact ⟨fun hs ↦ ⟨hs.1.symm, hs.2.symm⟩, fun hs ↦ ⟨hs.1.symm, hs.2.symm⟩⟩

theorem settled_of_not_contested
    (h : ∀ l ∈ snapshot.listeners, ∀ l' ∈ snapshot.listeners, ¬ Contested snapshot l l')
    (k : Proto × Nat) : Settled (snapshot.enriched.filter fun e ↦ e.portKey = k) := by
  by_contra hnot
  simp only [Settled, not_or, not_exists, not_and, not_forall, Bool.not_eq_true,
    Bool.not_eq_false] at hnot
  obtain ⟨hbypass, hplaceholder, e, he, e', he', hne⟩ := hnot
  obtain ⟨l, hl, hk, rfl⟩ := mem_filter_enriched.mp he
  obtain ⟨l', hl', hk', rfl⟩ := mem_filter_enriched.mp he'
  have hothers : ∀ l'' ∈ snapshot.listeners, (l''.proto, l''.port) = k →
      isPlaceholderOwnerLabel (ownerLabelFor l'') = true ∧
        (reachabilityFor l'' snapshot.firewall).dockerBypass = false := by
    intro l'' hl'' hk''
    have hmem := mem_filter_enriched.mpr ⟨l'', hl'', hk'', rfl⟩
    have hlabel := hplaceholder _ hmem
    have hoff := hbypass _ hmem
    rw [enrich_ownerLabel] at hlabel
    rw [enrich_dockerBypass] at hoff
    exact ⟨hlabel, hoff⟩
  rw [enrich_ownerLabel, enrich_ownerLabel] at hne
  cases hu : isUnknownLabel (ownerLabelFor l) with
  | true =>
    cases hu' : isUnknownLabel (ownerLabelFor l') with
    | true => exact hne (hu.trans hu'.symm)
    | false =>
      exact h l hl l' hl' ⟨(samePort_iff hk).mpr hk', hu, hu', fun l'' hl'' hs ↦
        hothers l'' hl'' ((samePort_iff hk).mp hs)⟩
  | false =>
    cases hu' : isUnknownLabel (ownerLabelFor l') with
    | false => exact hne (hu.trans hu'.symm)
    | true =>
      exact h l' hl' l hl ⟨(samePort_iff hk').mpr hk, hu', hu, fun l'' hl'' hs ↦
        hothers l'' hl'' ((samePort_iff hk').mp hs)⟩

theorem Settled.perm {g g' : List Enriched} (h : Settled g) (hperm : g.Perm g') : Settled g' := by
  simpa only [Settled, hperm.mem_iff] using h

theorem exists_codes_eq {ls ls' : List Enriched} {a : Agg}
    {expectedPublicPorts : List ExpectedPort} (hperm : ls.Perm ls')
    (hsettled : ∀ k : Proto × Nat, Settled (ls.filter fun e ↦ e.portKey = k))
    (ha : a ∈ aggregate ls) : ∃ a' ∈ aggregate ls', a.portKey = a'.portKey ∧
      a.codes expectedPublicPorts = a'.codes expectedPublicPorts := by
  have hgroup : (ls.filter fun e ↦ e.portKey = a.portKey).Perm
      (ls'.filter fun e ↦ e.portKey = a.portKey) := hperm.filter _
  have hagg := mem_aggregate.mp ha
  cases hagg' : aggOf (ls'.filter fun e ↦ e.portKey = a.portKey) with
  | none =>
    cases hg' : ls'.filter fun e ↦ e.portKey = a.portKey with
    | nil =>
      rw [hg', List.perm_nil] at hgroup
      rw [hgroup] at hagg
      cases hagg
    | cons l' ls' =>
      rw [hg'] at hagg'
      cases hagg'
  | some a' =>
    obtain ⟨hmem, hkey⟩ := lookup_spec (lookup_aggregate.trans hagg')
    exact ⟨a', hmem, hkey.symm, codes_congr hgroup hkey.symm hagg hagg' (hsettled a.portKey)⟩

theorem code_of_mem_ruleFindings {services : List Service} {seenPorts : List Nat} {rule : Rule}
    {f : Finding} (h : f ∈ ruleFindings services seenPorts rule) :
    f.code ≠ .UNATTRIBUTED_LISTENER := by
  unfold ruleFindings at h
  split at h
  · exact absurd h List.not_mem_nil
  · dsimp only at h
    split at h
    · exact absurd h List.not_mem_nil
    · obtain ⟨port, -, rfl⟩ := List.mem_map.mp h
      unfold staleFinding
      cases stoppedOwnerOf services rule.proto port with
      | none => exact FindingCode.noConfusion
      | some owner => exact FindingCode.noConfusion

theorem code_of_mem_engineFindings {firewall : Firewall} {f : Finding}
    (h : f ∈ engineFindings firewall) : f.code ≠ .UNATTRIBUTED_LISTENER := by
  unfold engineFindings at h
  split_ifs at h
  · rw [List.mem_singleton.mp h]
    exact FindingCode.noConfusion
  · rw [List.mem_singleton.mp h]
    exact FindingCode.noConfusion
  · rw [List.mem_singleton.mp h]
    exact FindingCode.noConfusion
  · exact absurd h List.not_mem_nil

theorem mem_marks_of_perm {listeners : List Listener} {services : List Service} {m : Mark}
    (hsettled : ∀ k : Proto × Nat, Settled (snapshot.enriched.filter fun e ↦ e.portKey = k))
    (hl : snapshot.listeners.Perm listeners) (hs : snapshot.services.Perm services)
    (hm : m ∈ marks snapshot settings) :
    m ∈ marks { snapshot with listeners, services } settings := by
  have henriched : snapshot.enriched.Perm
      (Facts.enriched { snapshot with listeners, services }) := hl.map _
  rw [mem_marks] at hm ⊢
  rcases hm with ⟨a, ha, hm⟩ | ⟨husable, rule, hrule, hm⟩ | hm
  · obtain ⟨a', ha', hkey, hcodes⟩ := exists_codes_eq henriched hsettled ha
    exact .inl ⟨a', ha', hkey ▸ hcodes ▸ hm⟩
  · refine .inr (.inl ⟨husable, rule, hrule, ?_⟩)
    rwa [← marks_ruleFindings hs fun port ↦ (henriched.map (·.port)).mem_iff]
  · exact .inr (.inr hm)

/-- The listener that comes first of a contested port decides whether its owner is unknown. -/
theorem mem_marks_first {l : Listener} {rest : List Listener}
    (hothers : ∀ l' ∈ l :: rest, SamePort l l' → isPlaceholderOwnerLabel (ownerLabelFor l') = true ∧
      (reachabilityFor l' snapshot.firewall).dockerBypass = false) :
    portMark (l.proto, l.port) .UNATTRIBUTED_LISTENER ∈
        marks { snapshot with listeners := l :: rest } settings ↔
      isUnknownLabel (ownerLabelFor l) = true := by
  set s : Facts := { snapshot with listeners := l :: rest } with hs
  have hgroup : s.enriched.filter (fun e ↦ e.portKey = (l.proto, l.port)) =
      enrich s.firewall l :: (rest.map (enrich s.firewall)).filter
        (fun e ↦ e.portKey = (l.proto, l.port)) :=
    List.filter_cons_of_pos (decide_eq_true rfl)
  obtain ⟨a, ha⟩ : ∃ a, aggOf (s.enriched.filter fun e ↦ e.portKey = (l.proto, l.port)) = some a :=
    ⟨_, by rw [hgroup]; rfl⟩
  obtain ⟨hmem, hkey⟩ := lookup_spec (lookup_aggregate.trans ha)
  -- every listener of the port
  have hall : ∀ e ∈ s.enriched.filter (fun e ↦ e.portKey = (l.proto, l.port)),
      isPlaceholderOwnerLabel e.ownerLabel = true ∧ e.dockerBypass = false := by
    intro e he
    obtain ⟨l', hl', hk, rfl⟩ := mem_filter_enriched.mp he
    rw [enrich_ownerLabel, enrich_dockerBypass]
    exact hothers l' hl' ((samePort_iff rfl).mpr hk)
  have hbypass : a.dockerBypass = false := by
    rw [(sums_of_aggOf ha).dockerBypass, List.any_eq_false]
    exact fun e he ↦ by rw [(hall e he).2]; exact Bool.false_ne_true
  have hunknown : isUnknownLabel a.ownerLabel = true ↔ isUnknownLabel (ownerLabelFor l) = true := by
    rw [hgroup] at ha hall
    rw [isUnknown_of_aggOf ha, enrich_ownerLabel]
    exact ⟨And.left, fun h ↦ ⟨h, fun e he ↦ (hall e he).1⟩⟩
  rw [← hunknown]
  have hreach : FindingCode.UNATTRIBUTED_LISTENER ∉ reachabilityCodes a.reachability
      a.service.isSome (isExpectedPublic a.port a.proto settings.expected).isSome := by
    unfold reachabilityCodes
    split <;> try split
    all_goals decide
  have hcodes : FindingCode.UNATTRIBUTED_LISTENER ∈ a.codes settings.expected ↔
      isUnknownLabel a.ownerLabel = true := by
    rw [Agg.codes, if_neg (by rw [hbypass]; exact Bool.false_ne_true), List.mem_append]
    refine ⟨fun h ↦ ?_, fun h ↦ .inr (by rw [if_pos h]; exact List.mem_singleton_self _)⟩
    rcases h with h | h
    · exact absurd h hreach
    · by_contra hnot
      rw [if_neg hnot] at h
      exact absurd h List.not_mem_nil
  rw [mem_marks, ← hcodes]
  constructor
  · rintro (⟨a', ha', hm⟩ | ⟨-, rule, -, hm⟩ | hm)
    · obtain ⟨code, hcode, heq⟩ := List.mem_map.mp hm
      obtain ⟨hk, rfl⟩ := portMark_injective heq
      have hsame := lookup_aggregate.symm.trans (lookup_of_mem nodup_aggregate ha')
      rw [hk, ha] at hsame
      exact Option.some.inj hsame ▸ hcode
    · obtain ⟨f, hf, hmark⟩ := List.mem_map.mp hm
      exact absurd (congrArg Mark.code hmark) (code_of_mem_ruleFindings hf)
    · obtain ⟨f, hf, hmark⟩ := List.mem_map.mp hm
      exact absurd (congrArg Mark.code hmark) (code_of_mem_engineFindings hf)
  · intro h
    exact .inl ⟨a, hmem, List.mem_map.mpr ⟨_, h, by rw [hkey]⟩⟩

/-- **The findings of a report do not depend on the order it is in, unless it has a port that is
contested.** -/
theorem order_free_iff (snapshot : Facts) (settings : Settings) : OrderFree snapshot settings ↔
    ∀ l ∈ snapshot.listeners, ∀ l' ∈ snapshot.listeners, ¬ Contested snapshot l l' := by
  constructor
  · rintro hfree l hl l' hl' ⟨hport, hu, hu', hothers⟩
    -- put the one listener first, and then the other
    have hfirst : ∀ {l₀ : Listener}, l₀ ∈ snapshot.listeners → SamePort l l₀ →
        (portMark (l.proto, l.port) .UNATTRIBUTED_LISTENER ∈ marks snapshot settings ↔
          isUnknownLabel (ownerLabelFor l₀) = true) := by
      intro l₀ hl₀ hsame
      have hperm := (List.perm_cons_erase hl₀).symm
      have hkey : (l₀.proto, l₀.port) = (l.proto, l.port) := Prod.ext hsame.1.symm hsame.2.symm
      rw [← hfree _ _ hperm (.refl _) _, ← hkey]
      refine mem_marks_first fun l'' hl'' hs ↦ hothers l'' (hperm.mem_iff.mp hl'') ?_
      exact (samePort_iff rfl).mpr (((samePort_iff hkey).mp hs))
    have htrue := (hfirst hl ⟨rfl, rfl⟩).mpr hu
    rw [hfirst hl' hport, hu'] at htrue
    cases htrue
  · intro hnot listeners services hl hs m
    have hsettled := settled_of_not_contested hnot
    constructor
    · intro hm
      have hsettled' : ∀ k : Proto × Nat, Settled
          ((Facts.enriched { snapshot with listeners, services }).filter fun e ↦ e.portKey = k) :=
        fun k ↦ (hsettled k).perm ((hl.symm.map _).filter _)
      exact @mem_marks_of_perm { snapshot with listeners, services } settings _ _ m hsettled'
        hl hs hm
    · exact mem_marks_of_perm hsettled hl.symm hs.symm

/-- A port that two sockets share: of one the collector does not know the owner, the other belongs
to a proxy of docker. -/
def sharedPort : Facts where
  firewall := { engine := .ufw, active := true, defaultIncoming := .allow }
  listeners := [{ proto := .tcp, bind := "0.0.0.0", port := 8081 },
    { proto := .tcp, bind := "::", port := 8081, ownerKind := some "docker-proxy" }]

/-- The findings depend on which of the two is reported first. -/
theorem sharedPort_not_order_free : ¬ OrderFree sharedPort {} := by
  intro h
  have hfound : portMark (.tcp, 8081) .UNATTRIBUTED_LISTENER ∈ marks sharedPort {} := by
    decide +kernel
  have hlost : portMark (.tcp, 8081) .UNATTRIBUTED_LISTENER ∉
      marks { sharedPort with listeners := sharedPort.listeners.reverse } {} := by decide +kernel
  exact hlost ((h _ _ (List.reverse_perm _) (.refl _) _).mpr hfound)

end

end Shellius.Posture
