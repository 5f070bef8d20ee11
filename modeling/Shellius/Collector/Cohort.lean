import Shellius.Collector.Rollout
import Shellius.Lib.Pool

/-!
# How far a rollout goes

The size of a step is worked out from the hosts that are candidates now and the hosts that have an
attempt already.  A host whose attempt failed or was withdrawn can be among both, and is then
counted twice.  It does no harm as long as such hosts come first in the order of the buckets, since
each of them takes up one of the places that it adds.
-/

namespace Shellius.Collector

open Lib

/-! ## The size of a cohort -/

theorem cohortSize_zero (percent : Nat) : cohortSize 0 percent = 0 := if_pos rfl

theorem cohortSize_of_pos {total percent : Nat} (htotal : total ≠ 0) (hpercent : percent ≠ 0)
    (hlt : percent < 100) : cohortSize total percent = max 1 ((total * percent + 99) / 100) := by
  rw [cohortSize, if_neg htotal, if_neg hpercent, if_neg (Nat.not_le.mpr hlt)]

theorem cohortSize_of_le {total percent : Nat} (h : 100 ≤ percent) :
    cohortSize total percent = total := by
  unfold cohortSize
  split
  · rename_i htotal
    exact htotal.symm
  · rw [if_neg (show ¬ percent = 0 by omega)]

theorem cohortSize_le (total percent : Nat) : cohortSize total percent ≤ total := by
  unfold cohortSize
  split
  · exact Nat.zero_le _
  · split
    · exact Nat.zero_le _
    · split
      · exact Nat.le_refl _
      · rename_i htotal hpercent hlt
        have hmul : total * percent ≤ total * 100 := Nat.mul_le_mul_left _ (by omega)
        omega

theorem cohortSize_mono {total total' percent percent' : Nat} (htotal : total ≤ total')
    (hpercent : percent ≤ percent') : cohortSize total percent ≤ cohortSize total' percent' := by
  by_cases hle : 100 ≤ percent'
  · rw [cohortSize_of_le hle]
    exact (cohortSize_le _ _).trans htotal
  · by_cases hzero : total = 0 ∨ percent = 0
    · have hnone : cohortSize total percent = 0 := by
        rcases hzero with rfl | rfl
        · exact cohortSize_zero _
        · unfold cohortSize
          simp
      rw [hnone]
      exact Nat.zero_le _
    · rw [cohortSize_of_pos (by omega) (by omega) (by omega),
        cohortSize_of_pos (by omega) (by omega) (by omega)]
      have hmul : total * percent ≤ total' * percent' := Nat.mul_le_mul htotal hpercent
      omega

theorem cohortSize_add_le (total more percent : Nat) :
    cohortSize (total + more) percent ≤ cohortSize total percent + more := by
  by_cases htotal : total = 0
  · rw [htotal, cohortSize_zero, Nat.zero_add]
    exact cohortSize_le _ _
  · by_cases hle : 100 ≤ percent
    · rw [cohortSize_of_le hle, cohortSize_of_le hle]
    · by_cases hpercent : percent = 0
      · unfold cohortSize
        simp [hpercent]
      · rw [cohortSize_of_pos (by omega) hpercent (by omega),
          cohortSize_of_pos htotal hpercent (by omega), Nat.add_mul]
        have hmul : more * percent ≤ more * 100 := Nat.mul_le_mul_left _ (by omega)
        omega

theorem length_filter_take_le {α : Type*} {p : α → Bool} {l : List α}
    (h : l.Pairwise fun a b ↦ p b = true → p a = true) (k : Nat) :
    ((l.take k).filter fun a ↦ !p a).length ≤ k - (l.filter p).length := by
  induction h generalizing k with
  | nil => simp
  | @cons a l hfirst _ ih =>
    cases k with
    | zero => simp
    | succ k =>
      rw [List.take_succ_cons]
      cases hp : p a with
      | true =>
        rw [List.filter_cons_of_neg (by simp [hp]), List.filter_cons_of_pos hp,
          List.length_cons, Nat.add_sub_add_right]
        exact ih k
      | false =>
        -- nobody after it passes
        have hnone : l.filter p = [] := by
          refine List.filter_eq_nil_iff.mpr fun b hb hpb ↦ ?_
          rw [hfirst b hb hpb] at hp
          cases hp
        have hpa : ¬ p a = true := by
          rw [hp]
          exact Bool.false_ne_true
        rw [List.filter_cons_of_neg (p := p) hpa, hnone, List.length_nil, Nat.sub_zero]
        refine (List.length_filter_le ..).trans ?_
        rw [List.length_cons]
        exact Nat.succ_le_succ (List.length_take_le ..)

/-! ## What the tables say -/

section

variable {cfg : Config} {s s' t : State} {version w : String} {id : Id} {p : String × Id}

theorem mem_offeredTo : id ∈ offeredTo s version ↔ (version, id) ∈ s.offers := by
  unfold offeredTo
  rw [List.mem_toFinset, List.mem_map]
  constructor
  · rintro ⟨⟨v, i⟩, hp, rfl⟩
    obtain ⟨hmem, hv⟩ := List.mem_filter.mp hp
    rw [← of_decide_eq_true hv]
    exact hmem
  · intro h
    exact ⟨(version, id), List.mem_filter.mpr ⟨h, decide_eq_true rfl⟩, rfl⟩

theorem mem_fleet : id ∈ fleet s version ↔ (version, id) ∈ s.counted ∨ (version, id) ∈ s.offers := by
  unfold fleet
  rw [Finset.mem_union, mem_offeredTo, List.mem_toFinset, List.mem_map]
  refine or_congr_left ⟨?_, fun h ↦ ?_⟩
  · rintro ⟨⟨v, i⟩, hp, rfl⟩
    obtain ⟨hmem, hv⟩ := List.mem_filter.mp hp
    rw [← of_decide_eq_true hv]
    exact hmem
  · exact ⟨(version, id), List.mem_filter.mpr ⟨h, decide_eq_true rfl⟩, rfl⟩

/-- The offers are on the record, each made in a rollout, and no rollout has gone too far. -/
structure Inv (s : State) : Prop where
  keys : s.attempts.rows.map CollectorUpdateAttempt.key = s.offers
  started : ∀ p ∈ s.offers, ∃ r ∈ s.rollouts, r.targetVersion = p.1
  reached : ∀ r ∈ s.rollouts, (offeredTo s r.targetVersion).card ≤
    cohortSize (fleet s r.targetVersion).card r.percent

theorem seen_eq (hkeys : s.attempts.rows.map CollectorUpdateAttempt.key = s.offers) :
    seen s version = (s.offers.filter (·.1 = version)).map (·.2) := by
  rw [← hkeys, List.filter_map, List.map_map]
  rfl

theorem mem_seen (hkeys : s.attempts.rows.map CollectorUpdateAttempt.key = s.offers) :
    id ∈ seen s version ↔ id ∈ offeredTo s version := by
  rw [seen_eq hkeys, offeredTo, List.mem_toFinset]

theorem nodup_offers (hkeys : s.attempts.rows.map CollectorUpdateAttempt.key = s.offers) :
    s.offers.Nodup := hkeys ▸ s.attempts.nodup

theorem length_seen (hkeys : s.attempts.rows.map CollectorUpdateAttempt.key = s.offers) :
    (seen s version).length = (offeredTo s version).card := by
  rw [seen_eq hkeys, offeredTo, List.toFinset_card_of_nodup]
  refine ((nodup_offers hkeys).filter _).map_on ?_
  rintro ⟨v, i⟩ hp ⟨v', i'⟩ hp' (rfl : i = i')
  have hv := of_decide_eq_true (List.mem_filter.mp hp).2
  have hv' := of_decide_eq_true (List.mem_filter.mp hp').2
  rw [show v = v' from hv.trans hv'.symm]

/-! ## Steps that offer nothing -/

/-- Nothing is offered or counted, no percentage changes, and what has ended stays as it is. -/
structure Kept (s s' : State) : Prop where
  keys : s'.attempts.rows.map CollectorUpdateAttempt.key =
    s.attempts.rows.map CollectorUpdateAttempt.key
  offers : s'.offers = s.offers
  counted : s'.counted = s.counted
  percent : ∀ r' ∈ s'.rollouts, ∃ r ∈ s.rollouts,
    r.targetVersion = r'.targetVersion ∧ r.percent = r'.percent
  rollouts : ∀ r ∈ s.rollouts, ∃ r' ∈ s'.rollouts, r'.targetVersion = r.targetVersion
  ended : ∀ r ∈ s.rollouts, r.status ≠ .rolling → r ∈ s'.rollouts

theorem Kept.offeredTo (h : Kept s s') : offeredTo s' version = offeredTo s version := by
  unfold Collector.offeredTo
  rw [h.offers]

theorem Kept.fleet (h : Kept s s') : fleet s' version = fleet s version := by
  unfold Collector.fleet
  rw [h.counted, h.offeredTo]

theorem Kept.inv (h : Kept s s') (hinv : Inv s) : Inv s' where
  keys := h.keys.trans (hinv.keys.trans h.offers.symm)
  started p hp := by
    rw [h.offers] at hp
    obtain ⟨r, hr, hv⟩ := hinv.started p hp
    obtain ⟨r', hr', hv'⟩ := h.rollouts r hr
    exact ⟨r', hr', hv'.trans hv⟩
  reached r' hr' := by
    obtain ⟨r, hr, hv, hpercent⟩ := h.percent r' hr'
    rw [h.offeredTo, h.fleet, ← hv, ← hpercent]
    exact hinv.reached r hr

theorem Kept.of_eq (hrollouts : s'.rollouts = s.rollouts) (hattempts : s'.attempts = s.attempts)
    (hoffers : s'.offers = s.offers) (hcounted : s'.counted = s.counted) : Kept s s' where
  keys := by rw [hattempts]
  offers := hoffers
  counted := hcounted
  percent r' hr' := ⟨r', hrollouts ▸ hr', rfl, rfl⟩
  rollouts r hr := ⟨r, hrollouts ▸ hr, rfl⟩
  ended r hr _ := hrollouts ▸ hr

theorem Kept.trans (h : Kept s s') (h' : Kept s' t) : Kept s t where
  keys := h'.keys.trans h.keys
  offers := h'.offers.trans h.offers
  counted := h'.counted.trans h.counted
  percent r'' hr'' := by
    obtain ⟨r', hr', hv', hp'⟩ := h'.percent r'' hr''
    obtain ⟨r, hr, hv, hp⟩ := h.percent r' hr'
    exact ⟨r, hr, hv.trans hv', hp.trans hp'⟩
  rollouts r hr := by
    obtain ⟨r', hr', hv'⟩ := h.rollouts r hr
    obtain ⟨r'', hr'', hv''⟩ := h'.rollouts r' hr'
    exact ⟨r'', hr'', hv''.trans hv'⟩
  ended r hr hended := h'.ended r (h.ended r hr hended) hended

theorem kept_updateAttempts {p : CollectorUpdateAttempt → Bool}
    {f : CollectorUpdateAttempt → CollectorUpdateAttempt} (hf : ∀ a, (f a).key = a.key) :
    Kept s (s.updateAttempts p f hf) where
  keys := by
    show ((s.attempts.rows.map fun a ↦ if p a then f a else a).map CollectorUpdateAttempt.key) = _
    rw [List.map_map]
    refine List.map_congr_left fun a _ ↦ ?_
    show (if p a then f a else a).key = a.key
    split
    · exact hf a
    · rfl
  offers := rfl
  counted := rfl
  percent r' hr' := ⟨r', hr', rfl, rfl⟩
  rollouts r hr := ⟨r, hr, rfl⟩
  ended r hr _ := hr

theorem mem_updateRollout {f : CollectorRollout → CollectorRollout}
    {hf : ∀ r, (f r).targetVersion = r.targetVersion} {q' : CollectorRollout} :
    q' ∈ (s.updateRollout version f hf).rollouts ↔
      ∃ q ∈ s.rollouts, (if q.targetVersion = version then f q else q) = q' :=
  List.mem_map

theorem kept_updateRollout {r : CollectorRollout} (hr : r ∈ s.rollouts) (hopen : r.status = .rolling)
    {f : CollectorRollout → CollectorRollout} (hf : ∀ r, (f r).targetVersion = r.targetVersion)
    (hpercent : ∀ r, (f r).percent = r.percent) : Kept s (s.updateRollout r.targetVersion f hf) where
  keys := rfl
  offers := rfl
  counted := rfl
  percent q' hq' := by
    obtain ⟨q, hq, rfl⟩ := mem_updateRollout.mp hq'
    refine ⟨q, hq, ?_⟩
    split
    · exact ⟨(hf q).symm, (hpercent q).symm⟩
    · exact ⟨rfl, rfl⟩
  rollouts q hq := by
    refine ⟨_, mem_updateRollout.mpr ⟨q, hq, rfl⟩, ?_⟩
    split
    · exact hf q
    · rfl
  ended q hq hended := by
    refine mem_updateRollout.mpr ⟨q, hq, if_neg fun hv ↦ ?_⟩
    obtain rfl := Keyed.ext hq hr hv
    exact hended hopen

theorem kept_closeRollout {r : CollectorRollout} (hr : r ∈ s.rollouts) (hopen : r.status = .rolling)
    (status : RolloutStatus) (reason : String) :
    Kept s (closeRollout s r.targetVersion status reason) := by
  refine .trans (kept_updateRollout hr hopen ?_ ?_) (kept_updateAttempts ?_)
  · exact fun _ ↦ rfl
  · exact fun _ ↦ rfl
  · exact fun _ ↦ rfl

theorem kept_judged : Kept s (judged cfg s version) := by
  refine .trans (kept_updateAttempts ?_) (kept_updateAttempts ?_)
  · exact fun _ ↦ rfl
  · exact fun _ ↦ rfl

/-! ## Steps that offer -/

structure Offered (version : String) (ids : List Id) (s s' : State) : Prop where
  rollouts : s'.rollouts = s.rollouts
  counted : s'.counted = s.counted
  keys : s'.attempts.rows.map CollectorUpdateAttempt.key = s'.offers
  mem : ∀ p, p ∈ s'.offers ↔ p ∈ s.offers ∨ p.1 = version ∧ p.2 ∈ ids

theorem offered_nil (hkeys : s.attempts.rows.map CollectorUpdateAttempt.key = s.offers) :
    Offered version [] s s where
  rollouts := rfl
  counted := rfl
  keys := hkeys
  mem p := by simp

theorem Offered.append {ids ids' : List Id} (h : Offered version ids s s')
    (h' : Offered version ids' s' t) : Offered version (ids ++ ids') s t where
  rollouts := h'.rollouts.trans h.rollouts
  counted := h'.counted.trans h.counted
  keys := h'.keys
  mem p := by
    rw [h'.mem, h.mem, List.mem_append, and_or_left, or_assoc]

theorem offered_offer (hkeys : s.attempts.rows.map CollectorUpdateAttempt.key = s.offers)
    (c : Candidate) : Offered version [c.server.id] s (offer version s c) := by
  unfold offer
  split
  · rename_i attempts hinsert
    obtain ⟨hfree, rfl⟩ := Keyed.insert?_eq_some.mp hinsert
    refine ⟨rfl, rfl, ?_, fun p ↦ ?_⟩
    · show (s.attempts.rows ++ [_]).map CollectorUpdateAttempt.key = _
      rw [List.map_append, hkeys]
      rfl
    · show p ∈ s.offers ++ [(version, c.server.id)] ↔ _
      rw [List.mem_append, List.mem_singleton, List.mem_singleton, Prod.ext_iff]
  · rename_i hinsert
    obtain ⟨a, ha, hkey⟩ := Keyed.insert?_eq_none.mp hinsert
    refine ⟨rfl, rfl, hkeys, fun p ↦ ⟨.inl, ?_⟩⟩
    rintro (hp | ⟨hv, hid⟩)
    · exact hp
    · -- the host has an attempt already
      rw [← hkeys]
      refine List.mem_map.mpr ⟨a, ha, hkey.trans ?_⟩
      exact Prod.ext hv.symm (List.mem_singleton.mp hid).symm

theorem offered_foldl (hkeys : s.attempts.rows.map CollectorUpdateAttempt.key = s.offers)
    (cs : List Candidate) :
    Offered version (cs.map (·.server.id)) s (cs.foldl (offer version) s) := by
  induction cs generalizing s with
  | nil => exact offered_nil hkeys
  | cons c cs ih =>
    have hone : Offered version [c.server.id] s (offer version s c) := offered_offer hkeys c
    exact hone.append (ih hone.keys)

theorem offered_offerAll (hkeys : s.attempts.rows.map CollectorUpdateAttempt.key = s.offers)
    (step : Nat) :
    Offered version ((cohort cfg s version step).map (·.server.id)) (countFleet cfg s version)
      (offerAll cfg s version step) := by
  have hcounted : (countFleet cfg s version).attempts.rows.map CollectorUpdateAttempt.key =
      (countFleet cfg s version).offers := hkeys
  exact offered_foldl hcounted _

theorem nodup_ordered : ((ordered cfg s version).map (·.server.id)).Nodup :=
  ((List.perm_insertionSort _ _).map _).nodup_iff.mpr nodup_candidatesFor

def isSeen (s : State) (version : String) (c : Candidate) : Bool := c.server.id ∈ seen s version

/-- When the candidates that have been offered a version come first, a step offers it to no more
hosts than the percentage of the fleet. -/
theorem card_offerAll (hkeys : s.attempts.rows.map CollectorUpdateAttempt.key = s.offers)
    (hranked : (ordered cfg s version).Pairwise fun a b ↦
      isSeen s version b = true → isSeen s version a = true) (step : Nat) :
    (offeredTo (offerAll cfg s version step) version).card ≤
      max (offeredTo s version).card
        (cohortSize (fleet (offerAll cfg s version step) version).card step) := by
  have hoff : Offered version ((cohort cfg s version step).map (·.server.id))
    (countFleet cfg s version) (offerAll cfg s version step) := offered_offerAll hkeys step
  generalize offerAll cfg s version step = s' at hoff ⊢
  let fresh (cs : List Candidate) : Finset Id :=
    ((cs.filter fun c ↦ !isSeen s version c).map (·.server.id)).toFinset
  have hmemFresh : ∀ {cs : List Candidate} {id}, id ∈ fresh cs ↔
      id ∉ offeredTo s version ∧ ∃ c ∈ cs, c.server.id = id := by
    intro cs id
    simp only [fresh, List.mem_toFinset, List.mem_map, List.mem_filter, isSeen, Bool.not_eq_true',
      decide_eq_false_iff_not, mem_seen hkeys]
    constructor
    · rintro ⟨c, ⟨hc, hno⟩, rfl⟩
      exact ⟨hno, c, hc, rfl⟩
    · rintro ⟨hno, c, hc, rfl⟩
      exact ⟨c, ⟨hc, hno⟩, rfl⟩
  -- those that are new in the cohort
  have hunion : offeredTo s' version = offeredTo s version ∪ fresh (cohort cfg s version step) := by
    ext id
    rw [Finset.mem_union, hmemFresh, mem_offeredTo, hoff.mem, mem_offeredTo, List.mem_map]
    show (version, id) ∈ s.offers ∨ _ ↔ _
    by_cases hid : (version, id) ∈ s.offers
    · simp [hid]
    · simp [hid]
  have hnew : (fresh (cohort cfg s version step)).card ≤
      cohortSize ((ordered cfg s version).length + (seen s version).length) step -
        (seen s version).length - ((ordered cfg s version).filter (isSeen s version)).length := by
    refine (List.toFinset_card_le _).trans ?_
    rw [List.length_map]
    exact length_filter_take_le hranked _
  -- those that are new in the fleet
  have hfleet : (offeredTo s version).card +
      ((ordered cfg s version).filter fun c ↦ !isSeen s version c).length ≤
      (fleet s' version).card := by
    have hcard : (fresh (ordered cfg s version)).card =
        ((ordered cfg s version).filter fun c ↦ !isSeen s version c).length := by
      rw [List.toFinset_card_of_nodup, List.length_map]
      exact nodup_ordered.sublist (List.filter_sublist.map _)
    have hdisjoint : Disjoint (offeredTo s version) (fresh (ordered cfg s version)) := by
      rw [Finset.disjoint_right]
      intro id hid
      exact (hmemFresh.mp hid).1
    rw [← hcard, ← Finset.card_union_of_disjoint hdisjoint]
    refine Finset.card_le_card fun id hid ↦ mem_fleet.mpr ?_
    rw [hoff.counted, hoff.mem]
    rcases Finset.mem_union.mp hid with hid | hid
    · exact .inr (.inl (mem_offeredTo.mp hid))
    · obtain ⟨c, hc, rfl⟩ := (hmemFresh.mp hid).2
      exact .inl (List.mem_append_right _ (List.mem_map.mpr ⟨c, hc, rfl⟩))
  have hparts : (ordered cfg s version).length =
      ((ordered cfg s version).filter (isSeen s version)).length +
        ((ordered cfg s version).filter fun c ↦ !isSeen s version c).length :=
    List.length_eq_length_filter_add _
  have hmono := cohortSize_mono hfleet (Nat.le_refl step)
  have hle := Finset.card_union_le (offeredTo s version) (fresh (cohort cfg s version step))
  rw [← hunion] at hle
  rw [length_seen hkeys, hparts] at hnew
  -- each host that is counted twice takes up the place that it adds
  generalize ((ordered cfg s version).filter (isSeen s version)).length = twice at hnew
  generalize ((ordered cfg s version).filter fun c ↦ !isSeen s version c).length = once at *
  have hcohort := cohortSize_add_le ((offeredTo s version).card + once) twice step
  rw [show twice + once + (offeredTo s version).card =
    (offeredTo s version).card + once + twice by omega] at hnew
  omega

/-! ## Widening a rollout -/

/-- Only the rollout of one version has moved, and nothing that has ended. -/
structure Moved (version : String) (s s' : State) : Prop where
  offers : ∀ w, w ≠ version → offeredTo s' w = offeredTo s w
  fleet : ∀ w, w ≠ version → fleet s' w = fleet s w
  percent : ∀ r' ∈ s'.rollouts, r'.targetVersion ≠ version → ∃ r ∈ s.rollouts,
    r.targetVersion = r'.targetVersion ∧ r.percent = r'.percent
  rollouts : ∀ r ∈ s.rollouts, ∃ r' ∈ s'.rollouts, r'.targetVersion = r.targetVersion
  ended : ∀ r ∈ s.rollouts, r.status ≠ .rolling → r ∈ s'.rollouts

theorem Kept.moved (h : Kept s s') : Moved version s s' where
  offers _ _ := h.offeredTo
  fleet _ _ := h.fleet
  percent r' hr' _ := h.percent r' hr'
  rollouts := h.rollouts
  ended := h.ended

theorem Moved.trans (h : Moved version s s') (h' : Moved version s' t) : Moved version s t where
  offers w hw := (h'.offers w hw).trans (h.offers w hw)
  fleet w hw := (h'.fleet w hw).trans (h.fleet w hw)
  percent r'' hr'' hv := by
    obtain ⟨r', hr', hv', hp'⟩ := h'.percent r'' hr'' hv
    obtain ⟨r, hr, hv₀, hp⟩ := h.percent r' hr' (hv' ▸ hv)
    exact ⟨r, hr, hv₀.trans hv', hp.trans hp'⟩
  rollouts r hr := by
    obtain ⟨r', hr', hv'⟩ := h.rollouts r hr
    obtain ⟨r'', hr'', hv''⟩ := h'.rollouts r' hr'
    exact ⟨r'', hr'', hv''.trans hv'⟩
  ended r hr hended := h'.ended r (h.ended r hr hended) hended

theorem Moved.inv (h : Moved version s s') (hinv : Inv s)
    (hmem : ∃ r ∈ s'.rollouts, r.targetVersion = version)
    (hkeys : s'.attempts.rows.map CollectorUpdateAttempt.key = s'.offers)
    (hreached : ∀ r ∈ s'.rollouts, r.targetVersion = version →
      (offeredTo s' version).card ≤ cohortSize (Collector.fleet s' version).card r.percent) :
    Inv s' where
  keys := hkeys
  started := by
    rintro ⟨w, id⟩ hp
    by_cases hw : w = version
    · rw [hw]
      exact hmem
    · rw [← mem_offeredTo, h.offers w hw, mem_offeredTo] at hp
      obtain ⟨r, hr, hv⟩ := hinv.started _ hp
      obtain ⟨r', hr', hv'⟩ := h.rollouts r hr
      exact ⟨r', hr', hv'.trans hv⟩
  reached r' hr' := by
    by_cases hv : r'.targetVersion = version
    · rw [hv]
      exact hreached r' hr' hv
    · obtain ⟨r, hr, hv', hpercent⟩ := h.percent r' hr' hv
      rw [h.offers _ hv, h.fleet _ hv, ← hv', ← hpercent]
      exact hinv.reached r hr

theorem moved_updateRollout {r : CollectorRollout} (hr : r ∈ s.rollouts)
    (hopen : r.status = .rolling) {f : CollectorRollout → CollectorRollout}
    (hf : ∀ r, (f r).targetVersion = r.targetVersion) :
    Moved r.targetVersion s (s.updateRollout r.targetVersion f hf) where
  offers _ _ := rfl
  fleet _ _ := rfl
  percent q' hq' hv := by
    obtain ⟨q, hq, rfl⟩ := mem_updateRollout.mp hq'
    by_cases hqv : q.targetVersion = r.targetVersion
    · rw [if_pos hqv, hf] at hv
      exact absurd hqv hv
    · exact ⟨q, hq, by rw [if_neg hqv], by rw [if_neg hqv]⟩
  rollouts q hq := by
    refine ⟨_, mem_updateRollout.mpr ⟨q, hq, rfl⟩, ?_⟩
    split
    · exact hf q
    · rfl
  ended q hq hended := by
    refine mem_updateRollout.mpr ⟨q, hq, if_neg fun hv ↦ ?_⟩
    obtain rfl := Keyed.ext hq hr hv
    exact hended hopen

theorem eq_of_mem_updateRollout {r q' : CollectorRollout} (hr : r ∈ s.rollouts)
    {f : CollectorRollout → CollectorRollout} {hf : ∀ r, (f r).targetVersion = r.targetVersion}
    (hq' : q' ∈ (s.updateRollout r.targetVersion f hf).rollouts)
    (hv : q'.targetVersion = r.targetVersion) : q' = f r := by
  obtain ⟨q, hq, rfl⟩ := mem_updateRollout.mp hq'
  by_cases hqv : q.targetVersion = r.targetVersion
  · obtain rfl := Keyed.ext hq hr hqv
    exact if_pos rfl
  · rw [if_neg hqv] at hv
    exact absurd hv hqv

theorem moved_offerAll (hkeys : s.attempts.rows.map CollectorUpdateAttempt.key = s.offers)
    (step : Nat) : Moved version s (offerAll cfg s version step) := by
  have hoff : Offered version ((cohort cfg s version step).map (·.server.id))
    (countFleet cfg s version) (offerAll cfg s version step) := offered_offerAll hkeys step
  have hoffers : ∀ w, w ≠ version → ∀ id,
      (w, id) ∈ (offerAll cfg s version step).offers ↔ (w, id) ∈ s.offers := by
    intro w hw id
    rw [hoff.mem]
    exact or_iff_left fun h ↦ hw h.1
  have hcounted : ∀ w, w ≠ version → ∀ id,
      (w, id) ∈ (offerAll cfg s version step).counted ↔ (w, id) ∈ s.counted := by
    intro w hw id
    rw [hoff.counted]
    show (w, id) ∈ s.counted ++ _ ↔ _
    rw [List.mem_append]
    refine or_iff_left fun h ↦ ?_
    obtain ⟨c, -, hc⟩ := List.mem_map.mp h
    exact hw (congrArg Prod.fst hc).symm
  refine ⟨?_, ?_, ?_, ?_, ?_⟩
  · intro w hw
    ext id
    rw [mem_offeredTo, mem_offeredTo, hoffers w hw]
  · intro w hw
    ext id
    rw [mem_fleet, mem_fleet, hoffers w hw, hcounted w hw]
  · intro r' hr' _
    rw [hoff.rollouts] at hr'
    exact ⟨r', hr', rfl, rfl⟩
  · intro r hr
    rw [hoff.rollouts]
    exact ⟨r, hr, rfl⟩
  · intro r hr _
    rw [hoff.rollouts]
    exact hr

theorem offeredTo_subset_fleet : offeredTo s version ⊆ fleet s version :=
  Finset.subset_union_right

theorem widen_cases {r : CollectorRollout} :
    (∃ percent, (∀ p, percent = some p → 100 ≤ p) ∧
      (widen cfg s r).1 = completeRollout s r.targetVersion percent) ∨
    ∃ step, r.percent ≤ step ∧ (widen cfg s r).1 = stepTo cfg s r.targetVersion step := by
  unfold widen
  dsimp only
  split
  · refine .inl ⟨some 100, fun p hp ↦ ?_, rfl⟩
    rw [← Option.some.inj hp]
  · split
    · exact .inl ⟨none, fun p hp ↦ (by cases hp), rfl⟩
    · rename_i step hstep
      refine .inr ⟨step, ?_, rfl⟩
      unfold nextStep at hstep
      split at hstep
      · rename_i hzero
        rw [hzero]
        exact Nat.zero_le _
      · have hlt := List.find?_some (p := fun p ↦ decide (r.percent < p)) hstep
        exact Nat.le_of_lt (of_decide_eq_true hlt)

section

variable {r : CollectorRollout} (hinv : Inv s) (hr : r ∈ s.rollouts) (hopen : r.status = .rolling)

include hr hopen in
theorem moved_completeRollout (percent : Option Nat) :
    Moved r.targetVersion s (completeRollout s r.targetVersion percent) :=
  moved_updateRollout hr hopen _

include hr in
/-- The open rollout is still there after the offers. -/
theorem mem_offerAll (hkeys : s.attempts.rows.map CollectorUpdateAttempt.key = s.offers)
    (step : Nat) : r ∈ (offerAll cfg s r.targetVersion step).rollouts := by
  rw [(offered_offerAll hkeys step).rollouts]
  exact hr

include hinv hr hopen

theorem moved_stepTo (step : Nat) : Moved r.targetVersion s (stepTo cfg s r.targetVersion step) := by
  refine (moved_offerAll hinv.keys step).trans
    (moved_updateRollout (mem_offerAll hr hinv.keys step) hopen ?_)
  exact fun _ ↦ rfl

theorem moved_widen : Moved r.targetVersion s (widen cfg s r).1 := by
  rcases widen_cases with ⟨percent, -, h⟩ | ⟨step, -, h⟩
  · rw [h]
    exact moved_completeRollout hr hopen percent
  · rw [h]
    exact moved_stepTo hinv hr hopen step

theorem inv_completeRollout {percent : Option Nat} (hpercent : ∀ p, percent = some p → 100 ≤ p) :
    Inv (completeRollout s r.targetVersion percent) := by
  have hmoved := moved_completeRollout hr hopen percent
  refine hmoved.inv hinv (hmoved.rollouts r hr) hinv.keys fun q hq hv ↦ ?_
  rw [eq_of_mem_updateRollout hr hq hv]
  show (offeredTo s r.targetVersion).card ≤
    cohortSize (fleet s r.targetVersion).card (percent.getD r.percent)
  cases percent with
  | none => exact hinv.reached r hr
  | some p =>
    rw [Option.getD_some, cohortSize_of_le (hpercent p rfl)]
    exact Finset.card_le_card offeredTo_subset_fleet

theorem inv_stepTo {step : Nat} (hstep : r.percent ≤ step)
    (hranked : (ordered cfg s r.targetVersion).Pairwise fun a b ↦
      isSeen s r.targetVersion b = true → isSeen s r.targetVersion a = true) :
    Inv (stepTo cfg s r.targetVersion step) := by
  have hmoved : Moved r.targetVersion s (stepTo cfg s r.targetVersion step) :=
    moved_stepTo hinv hr hopen step
  have hoff : Offered r.targetVersion ((cohort cfg s r.targetVersion step).map (·.server.id))
    (countFleet cfg s r.targetVersion) (offerAll cfg s r.targetVersion step) :=
      offered_offerAll hinv.keys step
  refine hmoved.inv hinv (hmoved.rollouts r hr) hoff.keys fun q hq hv ↦ ?_
  rw [eq_of_mem_updateRollout (mem_offerAll hr hinv.keys step) hq hv]
  show (offeredTo (offerAll cfg s r.targetVersion step) r.targetVersion).card ≤
    cohortSize (fleet (offerAll cfg s r.targetVersion step) r.targetVersion).card step
  refine (card_offerAll hinv.keys hranked step).trans (Nat.max_le.mpr ⟨?_, Nat.le_refl _⟩)
  -- the hosts that were offered it before
  refine (hinv.reached r hr).trans (cohortSize_mono ?_ hstep)
  refine Finset.card_le_card fun id hid ↦ mem_fleet.mpr ?_
  rw [hoff.counted, hoff.mem]
  rcases mem_fleet.mp hid with hid | hid
  · exact .inl (List.mem_append_left _ hid)
  · exact .inr (.inl hid)

theorem inv_widen (hranked : (ordered cfg s r.targetVersion).Pairwise fun a b ↦
      isSeen s r.targetVersion b = true → isSeen s r.targetVersion a = true) :
    Inv (widen cfg s r).1 := by
  rcases widen_cases with ⟨percent, hpercent, h⟩ | ⟨step, hstep, h⟩
  · rw [h]
    exact inv_completeRollout hinv hr hopen hpercent
  · rw [h]
    exact inv_stepTo hinv hr hopen hstep hranked

end

/-! ## A tick -/

/-- A tick works on an open rollout of the version that is shipped: the one that there is, or a new
one. -/
structure Opens (s s' : State) (r : CollectorRollout) : Prop where
  mem : r ∈ s'.rollouts
  rolling : r.status = .rolling
  target : s.target = some r.targetVersion
  moved : Moved r.targetVersion s s'
  inv : Inv s → Inv s'
  same : ∃ rollouts, s' = { s with rollouts }
  old : (∀ q ∈ s.rollouts, q.targetVersion = r.targetVersion → q = r) ∧
    ∀ q ∈ s'.rollouts, 0 < q.percent → q ∈ s.rollouts

/-- Why a rollout may grow. -/
structure Healthy (cfg : Config) (s : State) (r : CollectorRollout) : Prop where
  dwelt : dwelt cfg s.now r = true
  pending : (stepHealth (judged cfg s r.targetVersion) r.targetVersion).pending = 0
  overLimit : (stepHealth (judged cfg s r.targetVersion) r.targetVersion).overLimit = false

/-- What a tick does: it leaves the rollouts as far as they are, or widens one that is healthy. -/
inductive Advanced (cfg : Config) (s : State) : State → Prop
  | kept {s' : State} (h : Kept s s') : Advanced cfg s s'
  | opened {s₁ s' : State} {r : CollectorRollout} (ho : Opens s s₁ r) (h : Kept s₁ s') :
      Advanced cfg s s'
  | widened {s₁ : State} {r : CollectorRollout} (ho : Opens s s₁ r) (hhealthy : Healthy cfg s₁ r) :
      Advanced cfg s (widen cfg (judged cfg s₁ r.targetVersion) r).1

theorem opened_spec {r : CollectorRollout} (h : opened s = some r) :
    r ∈ s.rollouts ∧ r.status = .rolling := by
  unfold opened at h
  exact ⟨List.mem_of_find?_eq_some h, by simpa using List.find?_some h⟩

theorem kept_refl : Kept s s := .of_eq rfl rfl rfl rfl

theorem advanced_advanceRollout {s₁ : State} {r : CollectorRollout} (ho : Opens s s₁ r) :
    Advanced cfg s (advanceRollout cfg s₁ r).1 := by
  unfold advanceRollout
  dsimp only
  split
  · have hmem : r ∈ (judged cfg s₁ r.targetVersion).rollouts := ho.mem
    exact .opened ho (kept_judged.trans (kept_closeRollout hmem ho.rolling _ _))
  · rename_i hlimit
    split
    · exact .opened ho kept_judged
    · rename_i hpending
      split
      · exact .opened ho kept_judged
      · rename_i hdwelt
        refine .widened ho ⟨?_, Nat.eq_zero_of_not_pos hpending, eq_false_of_ne_true hlimit⟩
        rw [Bool.not_eq_true', Bool.not_eq_false] at hdwelt
        exact hdwelt

theorem opens_of_opened {r : CollectorRollout} (hopened : opened s = some r)
    (htarget : s.target = some r.targetVersion) : Opens s s r where
  mem := (opened_spec hopened).1
  rolling := (opened_spec hopened).2
  target := htarget
  moved := kept_refl.moved
  inv := id
  same := ⟨s.rollouts, rfl⟩
  old := ⟨fun _ hq hv ↦ Keyed.ext hq (opened_spec hopened).1 hv, fun _ hq _ ↦ hq⟩

theorem opens_of_insert {r : CollectorRollout}
    (hfree : ∀ q ∈ s.rollouts, q.targetVersion ≠ r.targetVersion) (hrolling : r.status = .rolling) (hpercent : r.percent = 0)
    (htarget : s.target = some r.targetVersion) :
    Opens s { s with rollouts := s.rollouts.insert r hfree } r := by
  have hmem : ∀ q, q ∈ s.rollouts.insert r hfree ↔ q ∈ s.rollouts ∨ q = r :=
    fun q ↦ Keyed.mem_insert hfree
  have hmoved : Moved r.targetVersion s { s with rollouts := s.rollouts.insert r hfree } := by
    refine ⟨fun _ _ ↦ rfl, fun _ _ ↦ rfl, fun q hq hv ↦ ?_, fun q hq ↦ ?_, fun q hq _ ↦ ?_⟩
    · rcases (hmem q).mp hq with hq | rfl
      · exact ⟨q, hq, rfl, rfl⟩
      · exact absurd rfl hv
    · exact ⟨q, (hmem q).mpr (.inl hq), rfl⟩
    · exact (hmem q).mpr (.inl hq)
  refine ⟨(hmem r).mpr (.inr rfl), hrolling, htarget, hmoved, fun hinv ↦ ?_, ⟨_, rfl⟩, ?_, ?_⟩
  · refine hmoved.inv hinv ⟨r, (hmem r).mpr (.inr rfl), rfl⟩ hinv.keys fun q _ _ ↦ ?_
    -- the version was never offered
    have hnone : offeredTo s r.targetVersion = ∅ := by
      refine Finset.eq_empty_of_forall_notMem fun id hid ↦ ?_
      obtain ⟨q, hq, hv⟩ := hinv.started _ (mem_offeredTo.mp hid)
      exact hfree q hq hv
    show (offeredTo s r.targetVersion).card ≤ _
    rw [hnone]
    exact Nat.zero_le _
  · exact fun q hq hv ↦ absurd hv (hfree q hq)
  · intro q hq hpos
    rcases (hmem q).mp hq with hq | rfl
    · exact hq
    · rw [hpercent] at hpos
      exact absurd hpos (Nat.lt_irrefl 0)

theorem advanced_advanceOrg : Advanced cfg s (advanceOrg cfg s).1 := by
  have hclose : ∀ {r : CollectorRollout} {status reason}, opened s = some r →
      Kept s (closeRollout s r.targetVersion status reason) := by
    intro r status reason h
    exact kept_closeRollout (opened_spec h).1 (opened_spec h).2 _ _
  unfold advanceOrg
  split
  · split
    · rename_i r hopened
      exact .kept (hclose hopened)
    · exact .kept kept_refl
  · split
    · exact .kept kept_refl
    · rename_i target htarget
      split
      · rename_i r hopened
        split
        · exact .kept (hclose hopened)
        · rename_i hsame
          rw [not_not] at hsame
          exact advanced_advanceRollout
            (opens_of_opened hopened (htarget.trans (congrArg some hsame.symm)))
      · split
        · exact .kept kept_refl
        · split
          · exact .kept kept_refl
          · rename_i hfind
            exact advanced_advanceRollout
              (opens_of_insert (Keyed.find_eq_none.mp hfind) rfl rfl htarget)

end

/-! ## Runs -/

/-- At a tick, no candidate that has not been offered the version comes before one that has. -/
def ranked (cfg : Config) (s : State) : Event → Bool
  | .tick now => s.target.all fun version ↦
      decide ((ordered cfg (s.at now) version).Pairwise fun a b ↦
        isSeen s version b = true → isSeen s version a = true)
  | .host _ | .settings _ | .ship _ | .wait _ | .report .. => true

def Ranked (cfg : Config) (s : State) (e : Event) (_ : State) : Prop := ranked cfg s e = true

section

variable {cfg : Config} {s s' : State} {e : Event}

theorem step_cases (hs : step cfg s e = some s') :
    Kept s s' ∨ ∃ now, e = .tick now ∧ Advanced cfg (s.at now) s' := by
  cases e with
  | host server =>
    obtain rfl := Option.some.inj hs
    exact .inl (.of_eq rfl rfl rfl rfl)
  | settings settings =>
    obtain rfl := Option.some.inj hs
    exact .inl (.of_eq rfl rfl rfl rfl)
  | ship target =>
    obtain rfl := Option.some.inj hs
    exact .inl (.of_eq rfl rfl rfl rfl)
  | wait now =>
    simp only [step] at hs
    split at hs
    · obtain rfl := Option.some.inj hs
      exact .inl (.of_eq rfl rfl rfl rfl)
    · cases hs
  | report serverId collectorOk agentVersion =>
    simp only [step] at hs
    split at hs
    · obtain rfl := Option.some.inj hs
      refine .inl ?_
      unfold recordReportedVersion
      split
      · exact .of_eq rfl rfl rfl rfl
      · have hsnapshots : ∀ snapshots, Kept s { s with snapshots } :=
          fun _ ↦ .of_eq rfl rfl rfl rfl
        exact (hsnapshots _).trans (kept_updateAttempts _)
    · cases hs
  | tick now =>
    simp only [step] at hs
    split at hs
    · obtain rfl := Option.some.inj hs
      exact .inr ⟨now, rfl, advanced_advanceOrg⟩
    · cases hs

theorem Inv.at (h : Inv s) (now : Millis) : Inv (s.at now) := ⟨h.keys, h.started, h.reached⟩

theorem Inv.step (h : Inv s) (hs : step cfg s e = some s') (hranked : Ranked cfg s e s') :
    Inv s' := by
  rcases step_cases hs with hkept | ⟨now, rfl, hadvanced⟩
  · exact hkept.inv h
  · have hnow := h.at now
    cases hadvanced with
    | kept hkept => exact hkept.inv hnow
    | opened ho hkept => exact hkept.inv (ho.inv hnow)
    | @widened s₁ r ho hhealthy =>
      have hinv₁ := ho.inv hnow
      have hinv : Inv (judged cfg s₁ r.targetVersion) := kept_judged.inv hinv₁
      have hmem : r ∈ (judged cfg s₁ r.targetVersion).rollouts := ho.mem
      refine inv_widen hinv hmem ho.rolling ?_
      have hseen : ∀ c, isSeen (judged cfg s₁ r.targetVersion) r.targetVersion c =
          isSeen s r.targetVersion c := by
        intro c
        obtain ⟨rollouts, rfl⟩ := ho.same
        unfold isSeen
        rw [seen_eq hinv.keys, seen_eq h.keys]
        rfl
      have hordered : ordered cfg (judged cfg s₁ r.targetVersion) r.targetVersion =
          ordered cfg (s.at now) r.targetVersion := by
        obtain ⟨rollouts, rfl⟩ := ho.same
        rfl
      have htarget : s.target = some r.targetVersion := ho.target
      rw [Ranked, ranked, htarget, Option.all_some, decide_eq_true_iff] at hranked
      rw [hordered]
      refine hranked.imp fun hab ↦ ?_
      rw [hseen, hseen]
      exact hab

theorem Opens.ne_of_ended {s₁ : State} {r q : CollectorRollout} (ho : Opens s s₁ r)
    (hq : q ∈ s.rollouts) (hended : q.status ≠ .rolling) : q.targetVersion ≠ r.targetVersion := by
  intro hv
  obtain rfl := Keyed.ext (ho.moved.ended q hq hended) ho.mem hv
  exact hended ho.rolling

theorem ended_of_step (h : Inv s) (hs : step cfg s e = some s') {q : CollectorRollout}
    (hq : q ∈ s.rollouts) (hended : q.status ≠ .rolling) :
    q ∈ s'.rollouts ∧ offeredTo s' q.targetVersion = offeredTo s q.targetVersion := by
  rcases step_cases hs with hkept | ⟨now, rfl, hadvanced⟩
  · exact ⟨hkept.ended q hq hended, hkept.offeredTo⟩
  · have hq : q ∈ (s.at now).rollouts := hq
    show _ ∧ _ = offeredTo (s.at now) q.targetVersion
    cases hadvanced with
    | kept hkept => exact ⟨hkept.ended q hq hended, hkept.offeredTo⟩
    | opened ho hkept =>
      have hv := ho.ne_of_ended hq hended
      have hmoved := ho.moved.trans hkept.moved
      exact ⟨hmoved.ended q hq hended, hmoved.offers _ hv⟩
    | @widened s₁ r ho hhealthy =>
      have hv := ho.ne_of_ended hq hended
      have hinv : Inv (judged cfg s₁ r.targetVersion) := kept_judged.inv (ho.inv (h.at now))
      have hmem : r ∈ (judged cfg s₁ r.targetVersion).rollouts := ho.mem
      have hwiden : Moved r.targetVersion (judged cfg s₁ r.targetVersion)
        (widen cfg (judged cfg s₁ r.targetVersion) r).1 := moved_widen hinv hmem ho.rolling
      have hmoved := (ho.moved.trans kept_judged.moved).trans hwiden
      exact ⟨hmoved.ended q hq hended, hmoved.offers _ hv⟩

theorem onEvidence (h : Inv s) (hs : step cfg s e = some s') : OnEvidence cfg s e s' := by
  refine ⟨fun q' hq' hpos hgrown ↦ ?_, fun q hq hended ↦ ended_of_step h hs hq hended⟩
  -- no rollout is as far as this one
  have hno : ∀ q ∈ s.rollouts, q.targetVersion = q'.targetVersion → q.percent = q'.percent →
      False := by
    intro q hq hv hpercent
    exact absurd hpercent (Nat.ne_of_lt (hgrown q hq hv))
  rcases step_cases hs with hkept | ⟨now, rfl, hadvanced⟩
  · obtain ⟨q, hq, hv, hpercent⟩ := hkept.percent q' hq'
    exact (hno q hq hv hpercent).elim
  · cases hadvanced with
    | kept hkept =>
      obtain ⟨q, hq, hv, hpercent⟩ := hkept.percent q' hq'
      exact (hno q hq hv hpercent).elim
    | opened ho hkept =>
      obtain ⟨q, hq, hv, hpercent⟩ := hkept.percent q' hq'
      exact (hno q (ho.old.2 q hq (hpercent ▸ hpos)) hv hpercent).elim
    | @widened s₁ r ho hhealthy =>
      have hinv : Inv (judged cfg s₁ r.targetVersion) := kept_judged.inv (ho.inv (h.at now))
      have hmem : r ∈ (judged cfg s₁ r.targetVersion).rollouts := ho.mem
      by_cases hv : q'.targetVersion = r.targetVersion
      · refine ⟨now, rfl, fun q hq hqv ↦ ?_, ?_, ?_⟩
        · rw [ho.old.1 q hq (hqv.trans hv)]
          obtain ⟨rollouts, rfl⟩ := ho.same
          exact hhealthy.dwelt
        · rw [hv]
          obtain ⟨rollouts, rfl⟩ := ho.same
          exact hhealthy.pending
        · rw [hv]
          obtain ⟨rollouts, rfl⟩ := ho.same
          exact hhealthy.overLimit
      · obtain ⟨q, hq, hqv, hpercent⟩ := (moved_widen hinv hmem ho.rolling).percent q' hq' hv
        exact (hno q (ho.old.2 q hq (hpercent ▸ hpos)) hqv hpercent).elim

theorem Inv.announced (h : Inv s) : Announced cfg s where
  reached := h.reached
  once := nodup_offers h.keys
  served serverId o ho := by
    obtain ⟨a, ha, ho⟩ := Option.bind_eq_some_iff.mp ho
    split at ho
    · obtain rfl := Option.some.inj ho
      obtain ⟨hmem, hoffered⟩ := List.mem_filter.mp (List.argmax_mem ha)
      rw [Bool.and_eq_true, Bool.and_eq_true, decide_eq_true_iff, decide_eq_true_iff,
        Option.any_eq_true] at hoffered
      obtain ⟨⟨rfl, -⟩, r, hr, hrolling⟩ := hoffered
      refine ⟨?_, r, Keyed.mem_of_find hr, Keyed.key_of_find hr, of_decide_eq_true hrolling⟩
      rw [← h.keys]
      exact List.mem_map.mpr ⟨a, hmem, rfl⟩
    · cases ho

/-- Before the first rollout. -/
structure State.Fresh (s : State) : Prop where
  rollouts : s.rollouts = .empty
  attempts : s.attempts = .empty
  offers : s.offers = []

theorem State.Fresh.inv (h : s.Fresh) : Inv s where
  keys := by
    rw [h.attempts, h.offers]
    rfl
  started p hp := by
    rw [h.offers] at hp
    cases hp
  reached r hr := by
    rw [h.rollouts] at hr
    cases hr

/-- As long as the hosts that were offered a version come first, the rollouts go by the evidence
and no further than announced. -/
theorem rollouts_as_announced {start : State} (hfresh : start.Fresh) {es : List Event}
    (hrun : Run (step cfg) (Ranked cfg) start es s) :
    Announced cfg s ∧ ∀ e s', step cfg s e = some s' → OnEvidence cfg s e s' := by
  have hinv : Inv s := hrun.invariant hfresh.inv fun _ _ _ h hs hranked ↦ h.step hs hranked
  exact ⟨hinv.announced, fun _ _ hs ↦ onEvidence hinv hs⟩

end

/-! ## Four hosts -/

def buckets : Config where
  bucketFor
    | "h11", "1.1.2" => 190
    | "h10", "1.1.2" => 1983
    | "h5", "1.1.2" => 3619
    | "h8", "1.1.2" => 3747
    | _, _ => 0

def noHosts : State where
  now := 1
  settings := { collectorAutoUpdate := true, collectorCanaryPercent := 25 }
  target := some "1.1.2"

theorem noHosts_fresh : noHosts.Fresh := ⟨rfl, rfl, rfl⟩

def joins (serverId : Id) : List Event :=
  [.host { id := serverId }, .report serverId true (some "1.1.1")]

def inOrder : List Event :=
  joins "h5" ++ joins "h8" ++ joins "h10" ++ joins "h11" ++
    [.tick 1, .wait (40 * 60 * 1000), .report "h11" true (some "1.1.2")] ++
    (["h5", "h8", "h10"].map fun id ↦ .report id true (some "1.1.1")) ++ [.tick (40 * 60 * 1000)]

theorem rollouts_as_announced_in_order :
    ∃ s, Run (step buckets) (Ranked buckets) noHosts inOrder s ∧ Announced buckets s ∧
      s.offers = [("1.1.2", "h11"), ("1.1.2", "h10")] := by
  have hview : (execIf (step buckets) (ranked buckets) noHosts inOrder).map (·.offers) =
    some [("1.1.2", "h11"), ("1.1.2", "h10")] := by decide +kernel
  obtain ⟨s, hrun, hoffers⟩ := exists_run hview
  exact ⟨s, hrun, (rollouts_as_announced noHosts_fresh hrun).1, hoffers⟩

def reverted : List Event :=
  joins "h5" ++ joins "h8" ++ [.tick 1, .wait (46 * 60 * 1000)] ++
    (["h5", "h8"].map fun id ↦ .report id true (some "1.1.1")) ++ joins "h10" ++ joins "h11" ++
    [.tick (46 * 60 * 1000)]

/-- Half of four hosts are three, when one of them is counted twice. -/
theorem counted_twice :
    ¬ ∀ es s, Run (step buckets) free noHosts es s →
      Announced buckets s ∧ ∀ e s', step buckets s e = some s' → OnEvidence buckets s e s' := by
  intro hall
  have hview : (exec (step buckets) noHosts reverted).map (fun s ↦ s.rollouts.rows.any fun r ↦
      cohortSize (fleet s r.targetVersion).card r.percent < (offeredTo s r.targetVersion).card) =
        some true := by
    decide +kernel
  obtain ⟨s, hrun, htoo⟩ := exists_run_free hview
  obtain ⟨r, hr, hlt⟩ := List.any_eq_true.mp htoo
  exact absurd ((hall reverted s hrun).1.reached r hr) (Nat.not_le.mpr (of_decide_eq_true hlt))

end Shellius.Collector
