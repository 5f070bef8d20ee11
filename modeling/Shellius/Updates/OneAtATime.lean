import Shellius.Updates.Instance

/-!
# One upgrade at a time

What a step does to the table of the requests is one of five things (`Effect`), and everything else
follows from that.  A request is claimed once whatever is interleaved with what, since the claim is
a conditional write.  That at most one request is in flight, and that a finished one stays as it
is, needs every creation and every report to be in time: nothing has come between its look at the
table and its writing that it would have had to see.
-/

namespace Shellius.Updates

open Lib

section

variable {number : List Char → Nat} {current : String} {s s' : Store} {p q : Pool Store Call}
  {e : Event Operation Draw Empty} {a b r : InstanceUpdateRequest} {requestId : Id}
  {inTime : Prop}

/-! ## Rewriting a row -/

theorem mem_rewrite {f : InstanceUpdateRequest → InstanceUpdateRequest}
    {hf : ∀ r, (f r).id = r.id} : b ∈ (s.rewrite requestId f hf).requests ↔
      b ∈ s.requests ∧ b.id ≠ requestId ∨ ∃ a ∈ s.requests, a.id = requestId ∧ f a = b := by
  rw [Store.rewrite, Keyed.mem_update]
  constructor
  · rintro ⟨a, ha, rfl⟩
    by_cases hid : a.id = requestId
    · exact .inr ⟨a, ha, hid, (if_pos hid).symm⟩
    · rw [if_neg hid]
      exact .inl ⟨ha, hid⟩
  · rintro (⟨hb, hid⟩ | ⟨a, ha, hid, rfl⟩)
    · exact ⟨b, hb, if_neg hid⟩
    · exact ⟨a, ha, if_pos hid⟩

theorem isRequested_iff :
    s.isRequested requestId = true ↔
      ∃ r ∈ s.requests, r.id = requestId ∧ r.status = .requested := by
  unfold Store.isRequested
  rw [Option.any_eq_true]
  constructor
  · rintro ⟨r, hr, hstatus⟩
    exact ⟨r, Keyed.mem_of_find hr, Keyed.key_of_find hr, of_decide_eq_true hstatus⟩
  · rintro ⟨r, hr, rfl, hstatus⟩
    exact ⟨r, Keyed.find_key hr, decide_eq_true hstatus⟩

theorem status_of_isRequested (h : s.isRequested requestId = true) (ha : a ∈ s.requests)
    (hid : a.id = requestId) : a.status = .requested := by
  obtain ⟨r, hr, hrid, hstatus⟩ := isRequested_iff.mp h
  rw [s.requests.ext ha hr (hid.trans hrid.symm)]
  exact hstatus

theorem claim_requests {d : Draw} (h : s.isRequested requestId = true) :
    (claim s requestId d).1.requests = (s.rewrite requestId
      (fun r ↦ { r with status := .claimed, claimedAt := some d.now }) fun _ ↦ rfl).requests := by
  rw [claim, if_pos h]

/-! ## What a step does -/

variable (number current inTime) in
/-- What a step does to the table, and what is known of it when the step is in time. -/
inductive Effect (s : Store) : Store → Prop
  | idle : Effect s s
  | created (version : String) (requestedById : Option Id) (d : Draw)
      (hnewer : isNewer number version current = true)
      (hfree : ∀ r ∈ s.requests, r.id ≠ (newRequest current version requestedById d).id)
      (hnone : inTime → s.opened = []) :
      Effect s { s with
        requests := s.requests.insert (newRequest current version requestedById d) hfree }
  | claimed (requestId : Id) (d : Draw) (h : s.isRequested requestId = true) :
      Effect s (claim s requestId d).1
  | reported (requestId : Id) (status : Status) (detail : Option String) (d : Draw)
      (hstatus : status.isReport = true)
      (hopen : inTime → ∀ r ∈ s.requests, r.id = requestId → r.status.isOpen = true) :
      Effect s (s.rewrite requestId (reported status detail d) fun _ ↦ rfl)
  | cancelled (requestId : Id) (detail : String) (d : Draw) (h : s.isRequested requestId = true) :
      Effect s (s.rewrite requestId (fun r ↦
        { r with status := .cancelled, detail := some detail, finishedAt := some d.now })
        fun _ ↦ rfl)

theorem Effect.mono {inTime' : Prop} (h : Effect number current inTime s s')
    (htime : inTime' → inTime) : Effect number current inTime' s s' := by
  cases h with
  | idle => exact .idle
  | created version requestedById d hnewer hfree hnone =>
    exact .created version requestedById d hnewer hfree fun h ↦ hnone (htime h)
  | claimed requestId d h => exact .claimed requestId d h
  | reported requestId status detail d hstatus hopen =>
    exact .reported requestId status detail d hstatus fun h ↦ hopen (htime h)
  | cancelled requestId detail d h => exact .cancelled requestId detail d h

/-- What a call has made sure of: it is for a version that is newer, or reports what may be
reported. -/
def Assert (number : List Char → Nat) (current : String) : Call → Prop
  | .creating version _ => isNewer number version current = true
  | .writing _ status _ => status.isReport = true
  | .called _ | .reading _ => True

/-- Whether a step still finds what its call has looked at before: no request in flight when one is
created, and one that is not finished when a report is written. -/
def prompt (p : Pool Store Call) : Event Operation Draw Empty → Bool
  | .act i _ =>
    match p.calls i with
    | some (.creating _ _) => p.store.pending.isNone
    | some (.writing requestId _ _) => (p.store.requests.find requestId).all (·.status.isOpen)
    | _ => true
  | .spawn _ _ | .abort _ | .env _ => true

def Prompt (p : Pool Store Call) (e : Event Operation Draw Empty) (_ : Pool Store Call) : Prop :=
  prompt p e = true

theorem request_ok {targetVersion version : String}
    (h : request number current s targetVersion = .ok version) :
    isNewer number version current = true ∧ s.pending = none := by
  simp only [request, checkVersion, bind_eq_ok] at h
  obtain ⟨v, ⟨w, -, _, -, _, hnewer, hw⟩, h⟩ := h
  obtain rfl := pure_eq_ok.mp hw
  cases hpending : s.pending with
  | some existing =>
    rw [hpending] at h
    cases h
  | none =>
    rw [hpending] at h
    obtain rfl := pure_eq_ok.mp h
    exact ⟨require_eq_ok.mp hnewer, rfl⟩

theorem reportStatus_some {status : Status} {detail detail' : Option String}
    (h : reportStatus s requestId status detail = .ok (some detail')) :
    status.isReport = true := by
  unfold reportStatus at h
  split at h
  · cases h
  · rename_i hreport
    exact Bool.eq_true_of_not_eq_false hreport

theorem keeps : (program number current).Keeps free (fun _ ↦ True)
    (fun _ _ ↦ Assert number current) where
  spawn _ _ _ _ := trivial
  act p i k d s' k' hp hk hact hfree := by
    clear hfree
    refine ⟨trivial, fun l hl ↦ ?_, fun j l _ hj ↦ hp.2 j l hj⟩
    subst hl
    change act number current p.store k d = some (s', some l) at hact
    unfold act at hact
    split at hact
    · split at hact
      · cases hact
      · rename_i hrequest
        cases hact
        exact (request_ok hrequest).1
    · obtain ⟨requests, -, h⟩ := Option.map_eq_some_iff.mp hact
      cases h
    · split at hact <;> cases hact
      trivial
    · split at hact <;> cases hact
      rename_i hreport
      exact reportStatus_some hreport
    · cases hact
    · split at hact <;> cases hact
      trivial
    · cases hact
  abort _ _ _ hp _ := ⟨trivial, fun j l _ hj ↦ hp.2 j l hj⟩
  env _ d := nomatch d

theorem effect_step (hp : Program.Holds (fun _ ↦ True) (fun _ _ ↦ Assert number current) p)
    (h : (program number current).step p e = some q) :
    Effect number current (prompt p e = true) p.store q.store := by
  cases e with
  | spawn i op =>
    obtain ⟨-, rfl⟩ := Program.step_spawn h
    exact .idle
  | abort i =>
    obtain ⟨k, -, rfl⟩ := Program.step_abort h
    exact .idle
  | env d => exact d.elim
  | act i d =>
    obtain ⟨k, ⟨s', k'⟩, hk, hact, rfl⟩ := Program.step_act h
    have hassert := hp.2 i k hk
    change act number current p.store k d = some (s', k') at hact
    unfold act at hact
    split at hact
    · split at hact <;> cases hact <;> exact .idle
    · rename_i version requestedById
      obtain ⟨requests, hinsert, h⟩ := Option.map_eq_some_iff.mp hact
      cases h
      obtain ⟨hfree, rfl⟩ := Keyed.insert?_eq_some.mp hinsert
      refine .created version requestedById d hassert hfree fun htime ↦ ?_
      rw [prompt, hk] at htime
      exact Store.pending_eq_none.mp (Option.isNone_iff_eq_none.mp htime)
    · rename_i requestId
      by_cases hreq : p.store.isRequested requestId = true
      · have heq : claim p.store requestId d = ((claim p.store requestId d).1, true) := by
          rw [claim, if_pos hreq]
        rw [heq] at hact
        cases hact
        exact .claimed requestId d hreq
      · rw [claim, if_neg hreq] at hact
        cases hact
        exact .idle
    · split at hact <;> cases hact <;> exact .idle
    · rename_i requestId status detail
      cases hact
      refine .reported requestId status detail d hassert fun htime r hr hid ↦ ?_
      rw [prompt, hk] at htime
      exact (Option.all_eq_true _ _).mp htime r (hid ▸ Keyed.find_key hr)
    · rename_i requestId detail
      by_cases hreq : p.store.isRequested requestId = true
      · rw [cancel, if_pos hreq] at hact
        cases hact
        exact .cancelled requestId detail d hreq
      · rw [cancel, if_neg hreq] at hact
        cases hact
        exact .idle
    · cases hact
      exact .idle

/-! ## What becomes of a row -/

/-- What a step that is in time may make of a row. -/
inductive Next (a : InstanceUpdateRequest) : InstanceUpdateRequest → Prop
  | same : Next a a
  | claimed (now : Millis) : a.status = .requested →
      Next a { a with status := .claimed, claimedAt := some now }
  | cancelled (detail : String) (now : Millis) : a.status = .requested →
      Next a { a with status := .cancelled, detail := some detail, finishedAt := some now }
  | reported (status : Status) (detail : Option String) (d : Draw) : a.status.isOpen = true →
      status.isReport = true → Next a (reported status detail d a)

/-- What a run may make of a row: it moves on, and a finished one stays as it is. -/
structure Onward (a b : InstanceUpdateRequest) : Prop where
  id : b.id = a.id
  versions : b.targetVersion = a.targetVersion ∧ b.fromVersion = a.fromVersion
  stage : a.status.stage ≤ b.status.stage
  final : a.status.isTerminal = true → b = a

theorem Onward.refl (a : InstanceUpdateRequest) : Onward a a where
  id := rfl
  versions := ⟨rfl, rfl⟩
  stage := Nat.le_refl _
  final _ := rfl

theorem Onward.trans {c : InstanceUpdateRequest} (h : Onward a b) (h' : Onward b c) :
    Onward a c where
  id := h'.id.trans h.id
  versions := ⟨h'.versions.1.trans h.versions.1, h'.versions.2.trans h.versions.2⟩
  stage := Nat.le_trans h.stage h'.stage
  final hterm := by
    obtain rfl := h.final hterm
    exact h'.final hterm

theorem not_isTerminal {status : Status} (h : status.isOpen = true) :
    ¬ status.isTerminal = true := by simp [Status.isTerminal, h]

theorem Next.onward (h : Next a b) : Onward a b := by
  cases h with
  | same => exact .refl a
  | claimed now hstatus =>
    refine ⟨rfl, ⟨rfl, rfl⟩, by rw [hstatus]; exact Nat.zero_le _, fun hterm ↦ ?_⟩
    exact absurd hterm (not_isTerminal (by rw [hstatus]; rfl))
  | cancelled detail now hstatus =>
    refine ⟨rfl, ⟨rfl, rfl⟩, by rw [hstatus]; exact Nat.zero_le _, fun hterm ↦ ?_⟩
    exact absurd hterm (not_isTerminal (by rw [hstatus]; rfl))
  | reported status detail d hopen hreport =>
    refine ⟨rfl, ⟨rfl, rfl⟩, ?_, fun hterm ↦ absurd hterm (not_isTerminal hopen)⟩
    exact (Nat.le_of_lt_succ (Status.isOpen_iff.mp hopen)).trans (Status.two_le_stage hreport)

theorem Onward.isOpen (h : Onward a b) (hb : b.status.isOpen = true) : a.status.isOpen = true :=
  Status.isOpen_iff.mpr (h.stage.trans_lt (Status.isOpen_iff.mp hb))

theorem Effect.next (h : Effect number current True s s') (ha : a ∈ s.requests) :
    ∃ b ∈ s'.requests, Next a b := by
  have hrewrite : ∀ {requestId f} (hf : ∀ r, (f r).id = r.id), (a.id = requestId → Next a (f a)) →
      ∃ b ∈ (s.rewrite requestId f hf).requests, Next a b := by
    intro requestId f hf hnext
    by_cases hid : a.id = requestId
    · exact ⟨f a, mem_rewrite.mpr (.inr ⟨a, ha, hid, rfl⟩), hnext hid⟩
    · exact ⟨a, mem_rewrite.mpr (.inl ⟨ha, hid⟩), .same⟩
  cases h with
  | idle => exact ⟨a, ha, .same⟩
  | created version requestedById d hnewer hfree hnone =>
    exact ⟨a, (Keyed.mem_insert hfree).mpr (.inl ha), .same⟩
  | claimed requestId d h =>
    rw [claim_requests h]
    exact hrewrite _ fun hid ↦ .claimed d.now (status_of_isRequested h ha hid)
  | reported requestId status detail d hstatus hopen =>
    exact hrewrite _ fun hid ↦ .reported status detail d (hopen trivial a ha hid) hstatus
  | cancelled requestId detail d h =>
    exact hrewrite _ fun hid ↦ .cancelled detail d.now (status_of_isRequested h ha hid)

theorem Effect.origin (h : Effect number current True s s') (hb : b ∈ s'.requests) :
    (∃ a ∈ s.requests, Next a b) ∨ s.opened = [] ∧ (∀ a ∈ s.requests, a.id ≠ b.id) ∧
      b.status = .requested ∧ ∀ c ∈ s'.requests, c = b ∨ c ∈ s.requests := by
  by_cases hold : ∃ a ∈ s.requests, a.id = b.id
  · obtain ⟨a, ha, hid⟩ := hold
    obtain ⟨c, hc, hnext⟩ := h.next ha
    obtain rfl := s'.requests.ext hc hb (hnext.onward.id.trans hid)
    exact .inl ⟨a, ha, hnext⟩
  · refine .inr ?_
    have hrewrite : ∀ {requestId f} (hf : ∀ r, (f r).id = r.id),
        ¬ b ∈ (s.rewrite requestId f hf).requests := by
      intro requestId f hf hmem
      rcases mem_rewrite.mp hmem with ⟨hb, -⟩ | ⟨a, ha, -, rfl⟩
      · exact hold ⟨b, hb, rfl⟩
      · exact hold ⟨a, ha, (hf a).symm⟩
    cases h with
    | idle => exact absurd ⟨b, hb, rfl⟩ hold
    | created version requestedById d hnewer hfree hnone =>
      rcases (Keyed.mem_insert hfree).mp hb with hb | rfl
      · exact absurd ⟨b, hb, rfl⟩ hold
      · refine ⟨hnone trivial, hfree, rfl, fun c hc ↦ ?_⟩
        exact ((Keyed.mem_insert hfree).mp hc).symm
    | claimed requestId d h =>
      rw [claim_requests h] at hb
      exact absurd hb (hrewrite _)
    | reported => exact absurd hb (hrewrite _)
    | cancelled => exact absurd hb (hrewrite _)

/-! ## What holds in a run -/

/-- At most one request is in flight. -/
def OneOpen (s : Store) : Prop :=
  ∀ a ∈ s.requests, ∀ b ∈ s.requests, a.status.isOpen = true → b.status.isOpen = true → a = b

theorem not_isOpen_of_opened (h : s.opened = []) (ha : a ∈ s.requests) :
    ¬ a.status.isOpen = true := by
  intro hopen
  have hmem : a ∈ s.opened := List.mem_filter.mpr ⟨ha, hopen⟩
  rw [h] at hmem
  cases hmem

theorem Effect.oneOpen (h : Effect number current True s s') (hs : OneOpen s) : OneOpen s' := by
  have hnew : ∀ {b c : InstanceUpdateRequest}, c ∈ s'.requests → c.status.isOpen = true →
      s.opened = [] → (∀ c ∈ s'.requests, c = b ∨ c ∈ s.requests) → c = b := by
    intro b c hc hopen hnone hrest
    exact (hrest c hc).resolve_right fun hc ↦ not_isOpen_of_opened hnone hc hopen
  intro b hb c hc hbo hco
  rcases h.origin hb with ⟨a, ha, hab⟩ | ⟨hnone, -, -, hrest⟩
  · rcases h.origin hc with ⟨a', ha', hac⟩ | ⟨hnone, -, -, hrest⟩
    · obtain rfl := hs a ha a' ha' (hab.onward.isOpen hbo) (hac.onward.isOpen hco)
      exact s'.requests.ext hb hc (hab.onward.id.trans hac.onward.id.symm)
    · exact hnew hb hbo hnone hrest
  · exact (hnew hc hco hnone hrest).symm

/-- A request that a claim was answered with is not requested any more, and there is one answer. -/
def Claims (s : Store) : Prop :=
  s.won.Nodup ∧ ∀ requestId ∈ s.won, ∃ r ∈ s.requests, r.id = requestId ∧ r.status ≠ .requested

theorem Effect.claims (h : Effect number current inTime s s') (hs : Claims s) : Claims s' := by
  have hrewrite : ∀ {requestId f} (hf : ∀ r, (f r).id = r.id),
      (∀ r, (f r).status ≠ .requested) → ∀ wonId ∈ s.won,
      ∃ r ∈ (s.rewrite requestId f hf).requests, r.id = wonId ∧ r.status ≠ .requested := by
    intro requestId f hf hstatus wonId hwon
    obtain ⟨r, hr, rfl, hne⟩ := hs.2 wonId hwon
    by_cases hid : r.id = requestId
    · exact ⟨f r, mem_rewrite.mpr (.inr ⟨r, hr, hid, rfl⟩), hf r, hstatus r⟩
    · exact ⟨r, mem_rewrite.mpr (.inl ⟨hr, hid⟩), rfl, hne⟩
  cases h with
  | idle => exact hs
  | created version requestedById d hnewer hfree hnone =>
    refine ⟨hs.1, fun wonId hwon ↦ ?_⟩
    obtain ⟨r, hr, hrest⟩ := hs.2 wonId hwon
    exact ⟨r, (Keyed.mem_insert hfree).mpr (.inl hr), hrest⟩
  | claimed requestId d h =>
    have hnew : requestId ∉ s.won := by
      intro hwon
      obtain ⟨r, hr, hid, hne⟩ := hs.2 requestId hwon
      exact hne (status_of_isRequested h hr hid)
    have hwon : (claim s requestId d).1.won = s.won ++ [requestId] := by rw [claim, if_pos h]
    rw [Claims, hwon, claim_requests h]
    refine ⟨List.nodup_append.mpr ⟨hs.1, List.nodup_singleton _, ?_⟩, fun wonId hwon ↦ ?_⟩
    · rintro a ha b hb rfl
      exact hnew (List.mem_singleton.mp hb ▸ ha)
    · rcases List.mem_append.mp hwon with hwon | hwon
      · exact hrewrite _ (fun r ↦ show Status.claimed ≠ .requested by decide) wonId hwon
      · obtain rfl := List.mem_singleton.mp hwon
        obtain ⟨r, hr, hid, -⟩ := isRequested_iff.mp h
        exact ⟨_, mem_rewrite.mpr (.inr ⟨r, hr, hid, rfl⟩), hid,
          show Status.claimed ≠ .requested by decide⟩
  | reported requestId status detail d hstatus hopen =>
    refine ⟨hs.1, hrewrite _ fun r ↦ ?_⟩
    rintro (rfl : status = .requested)
    cases hstatus
  | cancelled requestId detail d h =>
    exact ⟨hs.1, hrewrite _ fun r ↦ show Status.cancelled ≠ .requested by decide⟩

/-! ## Runs -/

/-- An installation that has never been upgraded. -/
def start : Pool Store Call := Program.idle Call {}

theorem holds_of_run {es : List (Event Operation Draw Empty)}
    (h : Run (program number current).step free start es p) :
    Program.Holds (fun _ ↦ True) (fun _ _ ↦ Assert number current) p :=
  keeps.run (Program.holds_idle trivial) h

variable (inTime) in
/-- An invariant of what steps do holds in every run. -/
theorem invariant_of_effect {ok : Pool Store Call → Event Operation Draw Empty →
      Pool Store Call → Prop} {I : Store → Prop} {es : List (Event Operation Draw Empty)}
    (h₀ : I {}) (hok : ∀ p e q, ok p e q → inTime → prompt p e = true)
    (hI : ∀ s s', Effect number current inTime s s' → I s → I s')
    (h : Run (program number current).step ok start es p) : I p.store := by
  have key : Program.Holds (fun _ ↦ True) (fun _ _ ↦ Assert number current) p ∧ I p.store := by
    refine h.invariant (I := fun p ↦
      Program.Holds (fun _ ↦ True) (fun _ _ ↦ Assert number current) p ∧ I p.store)
      ⟨Program.holds_idle trivial, h₀⟩ fun t e u ht hs ho ↦ ?_
    refine ⟨keeps.step ht.1 hs trivial, hI _ _ ?_ ht.2⟩
    exact (effect_step ht.1 hs).mono (hok _ _ _ ho)
  exact key.2

/-- A claim of a request is answered with it at most once, whatever is interleaved.  As long as
every creation and every report is in time, at most one request is in flight, each is created as
requested and moves on step by step, and what is finished stays as it is. -/
theorem upgrades_one_at_a_time {es fs gs : List (Event Operation Draw Empty)}
    {p' : Pool Store Call} (hany : Run (program number current).step free start es p')
    (hp : Run (program number current).step Prompt start fs p)
    (hq : Run (program number current).step Prompt p gs q) :
    p'.store.won.Nodup ∧ OneOpen p.store ∧
      (∀ e p', (program number current).step p e = some p' → Prompt p e p' →
        ∀ b ∈ p'.store.requests, (∃ a ∈ p.store.requests, Next a b) ∨
          b.status = .requested ∧ ∀ a ∈ p.store.requests, a.id ≠ b.id) ∧
      ∀ a ∈ p.store.requests, ∃ b ∈ q.store.requests, Onward a b := by
  have hassert := holds_of_run hp.forget
  have heffect : ∀ {e q}, (program number current).step p e = some q → Prompt p e q →
      Effect number current True p.store q.store := fun hs hprompt ↦
    (effect_step hassert hs).mono fun _ ↦ hprompt
  refine ⟨?_, ?_, ?_, ?_⟩
  · have hclaims : Claims p'.store :=
      invariant_of_effect False ⟨List.nodup_nil, fun _ h ↦ by cases h⟩ (fun _ _ _ _ h ↦ h.elim)
        (fun _ _ h hs ↦ h.claims hs) hany
    exact hclaims.1
  · exact invariant_of_effect True (fun _ h ↦ absurd h Keyed.notMem_empty)
      (fun _ _ _ hprompt _ ↦ hprompt) (fun _ _ h hs ↦ h.oneOpen hs) hp
  · intro e p' hs hprompt b hb
    rcases (heffect hs hprompt).origin hb with h | ⟨-, hfree, hstatus, -⟩
    · exact .inl h
    · exact .inr ⟨hstatus, hfree⟩
  · intro a ha
    have key := hq.invariant (I := fun q ↦
      Program.Holds (fun _ ↦ True) (fun _ _ ↦ Assert number current) q ∧
        ∃ b ∈ q.store.requests, Onward a b) ⟨hassert, a, ha, .refl a⟩ fun t e u ht hs hprompt ↦ by
      obtain ⟨hassert, b, hb, hab⟩ := ht
      have heffect : Effect number current True t.store u.store :=
        (effect_step hassert hs).mono fun _ ↦ hprompt
      obtain ⟨c, hc, hbc⟩ := heffect.next hb
      exact ⟨keeps.step hassert hs trivial, c, hc, hab.trans hbc.onward⟩
    exact key.2

end

/-! ## One installation -/

/-- `Number` on digits. -/
def decimal (cs : List Char) : Nat := Nat.ofDigitChars 10 cs 0

def installed : Program Store Operation Call Draw Empty := program decimal "2.0.0"

def alone (op : Operation) (now : Millis) (newId : Id) : List (Event Operation Draw Empty) :=
  [.spawn 0 op, .act 0 ⟨now, newId⟩, .act 0 ⟨now, newId⟩]

def upgrading : List (Event Operation Draw Empty) :=
  alone (.request "v2.1.0" (some "u1")) 10 "r1" ++ alone (.claim "r1") 20 "r2" ++
    alone (.reportStatus "r1" .running none) 30 "r3"

def succeeding : List (Event Operation Draw Empty) :=
  alone (.reportStatus "r1" .succeeded (some "Now running 2.1.0.")) 40 "r4" ++
    [.spawn 0 (.reportStatus "r1" .succeeded none), .act 0 ⟨50, "r5"⟩]

def half : Pool Store Call :=
  (execIf installed.step prompt start upgrading).getD start

def whole : Pool Store Call :=
  (execIf installed.step prompt half succeeding).getD start

theorem half_runs : execIf installed.step prompt start upgrading = some half := rfl

theorem whole_runs : execIf installed.step prompt half succeeding = some whole := rfl

theorem upgrades_one_at_a_time_succeeded :
    half.store.won.Nodup ∧ OneOpen half.store ∧
      (∀ e p', installed.step half e = some p' → Prompt half e p' →
        ∀ b ∈ p'.store.requests, (∃ a ∈ half.store.requests, Next a b) ∨
          b.status = .requested ∧ ∀ a ∈ half.store.requests, a.id ≠ b.id) ∧
      ∀ a ∈ half.store.requests, ∃ b ∈ whole.store.requests, Onward a b :=
  upgrades_one_at_a_time (run_of_execIf half_runs).forget (run_of_execIf half_runs)
    (run_of_execIf whole_runs)

/-- The stages one by one. -/
inductive Status.Passes : Status → Status → Prop
  | claim : Passes .requested .claimed
  | run : Passes .claimed .running
  | finish {status : Status} : status.isTerminal = true → Passes .running status
  | cancel : Passes .requested .cancelled

def refusing : List (Event Operation Draw Empty) :=
  alone (.request "2.1.0" none) 10 "r1" ++
    [.spawn 0 (.reportStatus "r1" .failed (some "The helper refused 2.1.0")), .act 0 ⟨20, "r2"⟩]

def refused : Pool Store Call := (exec installed.step start refusing).getD start

/-- Not every request passes through each of the stages. -/
theorem passes_over_stages : ¬ ∀ es p e q, Run installed.step free start es p →
    installed.step p e = some q → p.store.won.Nodup ∧ OneOpen p.store ∧
      ∀ a ∈ p.store.requests, ∃ b ∈ q.store.requests, b.id = a.id ∧
        (b.status = a.status ∨ Status.Passes a.status b.status) ∧
        (a.status.isTerminal = true → b.finishedAt = a.finishedAt) := by
  intro h
  have hrun : exec installed.step start refusing = some refused := rfl
  obtain ⟨-, -, hrows⟩ := h refusing refused (.act 0 ⟨30, "r3"⟩) _ (run_of_exec hrun) rfl
  obtain ⟨b, hb, -, hstatus, -⟩ := hrows _ (List.mem_singleton_self _)
  obtain rfl := List.mem_singleton.mp hb
  rcases hstatus with hstatus | hstatus
  · exact absurd hstatus (by decide)
  · cases hstatus

-- Two people look before either of them creates.
example : ((exec installed.step start
    [.spawn 0 (.request "2.1.0" (some "u1")), .spawn 1 (.request "2.2.0" (some "u2")),
      .act 0 ⟨10, "r1"⟩, .act 1 ⟨10, "r2"⟩, .act 0 ⟨11, "r1"⟩, .act 1 ⟨11, "r2"⟩]).map
      fun p ↦ p.store.opened.map (·.id)) = some ["r1", "r2"] := rfl

-- A report that has been read before another finishes the request reopens it.
example : ((exec installed.step half
    [.spawn 0 (.reportStatus "r1" .running none), .act 0 ⟨40, "r2"⟩,
      .spawn 1 (.reportStatus "r1" .succeeded none), .act 1 ⟨41, "r3"⟩, .act 1 ⟨41, "r3"⟩,
      .act 0 ⟨42, "r4"⟩]).map
      fun p ↦ p.store.requests.rows.map (fun r ↦ (r.status, r.finishedAt))) =
    some [(.running, some 41)] := rfl

end Shellius.Updates
