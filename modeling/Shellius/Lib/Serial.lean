import Mathlib.Data.List.Nodup
import Mathlib.Logic.Relation

/-!
# Histories that could have been serial

A history is a list of edits, oldest first, each made by some transaction.  Two
edits *conflict* if they have the same key; edits that do not conflict commute.
One transaction comes *before* another if it made the earlier one of two
conflicting edits.

If that relation has no cycle, the transactions can be put in an order in which
no two conflicting edits change places, and carrying out one transaction after
the other in this order comes to the same as the history: `exists_serial`.
-/

universe u v w x

namespace Shellius.Lib

variable {σ : Type u} {ε : Type v} {τ : Type w} {κ : Type x}

/-! ## Replaying edits -/

/-- The state after some edits. -/
def replay (apply : ε → σ → σ) (s : σ) (es : List ε) : σ := es.foldl (fun s e ↦ apply e s) s

section

variable {apply : ε → σ → σ} {s : σ} {e : ε} {es fs : List ε}

@[simp] theorem replay_nil : replay apply s [] = s := rfl

@[simp] theorem replay_cons : replay apply s (e :: es) = replay apply (apply e s) es := rfl

theorem replay_append : replay apply s (es ++ fs) = replay apply (replay apply s es) fs :=
  List.foldl_append

theorem replay_comm {key : ε → κ}
    (hcomm : ∀ e f s, key e ≠ key f → apply e (apply f s) = apply f (apply e s))
    (h : ∀ f ∈ es, key f ≠ key e) : replay apply (apply e s) es = apply e (replay apply s es) := by
  induction es generalizing s with
  | nil => rfl
  | cons f es ih =>
    rw [replay_cons, replay_cons, hcomm f e s (h f List.mem_cons_self)]
    exact ih fun g hg ↦ h g (List.mem_cons_of_mem _ hg)

end

/-! ## The order of transactions -/

section

variable {key : ε → κ} {h h' : List (τ × ε)} {t r : τ} {f : ε}

/-- The transaction `t` made the earlier one of two conflicting edits, and `r` the
later one. -/
def Before (key : ε → κ) (h : List (τ × ε)) (t r : τ) : Prop :=
  t ≠ r ∧ ∃ e f, [(t, e), (r, f)].Sublist h ∧ key e = key f

/-- No transaction comes before itself, by whatever detour. -/
def Serializable (key : ε → κ) (h : List (τ × ε)) : Prop :=
  ∀ t, ¬ Relation.TransGen (Before key h) t t

theorem Before.mono (hb : Before key h t r) (hsub : h.Sublist h') : Before key h' t r := by
  obtain ⟨hne, e, f, hs, hk⟩ := hb
  exact ⟨hne, e, f, hs.trans hsub, hk⟩

theorem Before.mem (hb : Before key h t r) : (∃ e, (t, e) ∈ h) ∧ ∃ f, (r, f) ∈ h := by
  obtain ⟨-, e, f, hs, -⟩ := hb
  exact ⟨⟨e, hs.subset List.mem_cons_self⟩, f, hs.subset (by simp)⟩

theorem serializable_nil : Serializable key ([] : List (τ × ε)) := by
  intro t ht
  obtain ⟨r, hb, -⟩ := Relation.TransGen.head'_iff.mp ht
  obtain ⟨⟨e, he⟩, -⟩ := hb.mem
  cases he

theorem before_snoc {u : τ} (hb : Before key (h ++ [(u, f)]) t r) :
    Before key h t r ∨ r = u ∧ t ≠ u ∧ ∃ e, (t, e) ∈ h ∧ key e = key f := by
  obtain ⟨hne, e, g, hs, hk⟩ := hb
  obtain ⟨l₁, l₂, hl, h₁, h₂⟩ := List.sublist_append_iff.mp hs
  rcases List.sublist_singleton.mp h₂ with rfl | rfl
  · rw [List.append_nil] at hl
    exact .inl ⟨hne, e, g, hl ▸ h₁, hk⟩
  · have hpair : [(t, e)] ++ [(r, g)] = l₁ ++ [(u, f)] := hl
    obtain ⟨rfl, hlast⟩ := List.append_inj' hpair rfl
    obtain ⟨rfl, rfl⟩ := Prod.mk.inj (List.singleton_inj.mp hlast)
    exact .inr ⟨rfl, hne, e, h₁.subset List.mem_cons_self, hk⟩

theorem Serializable.snoc {u : τ} (hs : Serializable key h)
    (hu : ∀ t e, t ≠ u → (t, e) ∈ h → key e = key f → ¬ Relation.TransGen (Before key h) u t) :
    Serializable key (h ++ [(u, f)]) := by
  -- a detour through the new edit ends in what came after `u` already
  have key' : ∀ t r, Relation.TransGen (Before key (h ++ [(u, f)])) t r →
      Relation.TransGen (Before key h) t r ∨
        (∃ q e, q ≠ u ∧ (q, e) ∈ h ∧ key e = key f ∧
          Relation.ReflTransGen (Before key h) t q) ∧
        Relation.ReflTransGen (Before key h) u r := by
    intro t r htr
    induction htr with
    | single hb =>
      rcases before_snoc hb with hb | ⟨rfl, hne, e, he, hk⟩
      · exact .inl (.single hb)
      · exact .inr ⟨⟨t, e, hne, he, hk, .refl⟩, .refl⟩
    | @tail q r _ hb ih =>
      rcases before_snoc hb with hb | ⟨rfl, hne, e, he, hk⟩
      · rcases ih with ih | ⟨hto, hfrom⟩
        · exact .inl (ih.tail hb)
        · exact .inr ⟨hto, hfrom.tail hb⟩
      · rcases ih with ih | ⟨-, hfrom⟩
        · exact .inr ⟨⟨q, e, hne, he, hk, ih.to_reflTransGen⟩, .refl⟩
        · rcases Relation.reflTransGen_iff_eq_or_transGen.mp hfrom with he' | htrans
          · exact absurd he' hne
          · exact absurd htrans (hu q e hne he hk)
  intro t ht
  rcases key' t t ht with hold | ⟨⟨q, e, hne, he, hk, hto⟩, hfrom⟩
  · exact hs t hold
  · rcases Relation.reflTransGen_iff_eq_or_transGen.mp (hfrom.trans hto) with he' | htrans
    · exact hne he'
    · exact hu q e hne he hk htrans

end

/-! ## A serial order -/

theorem exists_minimal {r : τ → τ → Prop} (hirr : ∀ a, ¬ r a a)
    (htrans : ∀ a b c, r a b → r b c → r a c) {l : List τ} (hl : l ≠ []) :
    ∃ m ∈ l, ∀ a ∈ l, ¬ r a m := by
  induction l with
  | nil => exact absurd rfl hl
  | cons b l ih =>
    rcases eq_or_ne l [] with rfl | hne
    · refine ⟨b, List.mem_cons_self, fun a ha ↦ ?_⟩
      rw [List.mem_singleton.mp ha]
      exact hirr b
    · obtain ⟨m, hm, hmin⟩ := ih hne
      by_cases hb : r b m
      · refine ⟨b, List.mem_cons_self, fun a ha hab ↦ ?_⟩
        rcases List.mem_cons.mp ha with rfl | ha
        · exact hirr a hab
        · exact hmin a ha (htrans a b m hab hb)
      · refine ⟨m, List.mem_cons_of_mem _ hm, fun a ha ham ↦ ?_⟩
        rcases List.mem_cons.mp ha with rfl | ha
        · exact hb ham
        · exact hmin a ha ham

section

variable [DecidableEq τ] {key : ε → κ} {apply : ε → σ → σ} {h : List (τ × ε)} {s : σ} {t : τ}

/-- The edits of one transaction. -/
def editsOf (h : List (τ × ε)) (t : τ) : List ε := (h.filter fun x ↦ x.1 = t).map Prod.snd

@[simp] theorem editsOf_nil : editsOf ([] : List (τ × ε)) t = [] := rfl

theorem editsOf_append {h' : List (τ × ε)} :
    editsOf (h ++ h') t = editsOf h t ++ editsOf h' t := by
  simp [editsOf]

@[simp] theorem editsOf_singleton_self {e : ε} : editsOf [(t, e)] t = [e] := by simp [editsOf]

theorem editsOf_singleton_of_ne {e : ε} {r : τ} (hne : r ≠ t) : editsOf [(r, e)] t = [] := by
  simp [editsOf, hne]

theorem editsOf_ne_nil : editsOf h t ≠ [] ↔ t ∈ h.map Prod.fst := by
  simp only [editsOf, ne_eq, List.map_eq_nil_iff, List.filter_eq_nil_iff, not_forall, List.mem_map]
  constructor
  · rintro ⟨x, hx, hne⟩
    exact ⟨x, hx, by simpa using hne⟩
  · rintro ⟨x, hx, rfl⟩
    exact ⟨x, hx, by simp⟩

theorem replay_first (hcomm : ∀ e f s, key e ≠ key f → apply e (apply f s) = apply f (apply e s))
    (hfirst : ∀ r, ¬ Before key h r t) :
    replay apply s (h.map Prod.snd) =
      replay apply s (editsOf h t ++ (h.filter fun x ↦ x.1 ≠ t).map Prod.snd) := by
  induction h generalizing s with
  | nil => rfl
  | cons x h ih =>
    have hrest : ∀ r, ¬ Before key h r t := fun r hb ↦
      hfirst r (hb.mono (List.sublist_cons_self _ _))
    rw [List.map_cons, replay_cons, ih hrest]
    by_cases hx : x.1 = t
    · simp [editsOf, hx]
    · have hno : ∀ f ∈ editsOf h t, key f ≠ key x.2 := by
        intro f hf hk
        obtain ⟨y, hy, rfl⟩ := List.mem_map.mp hf
        obtain ⟨hmem, hyt⟩ := List.mem_filter.mp hy
        obtain rfl : y.1 = t := of_decide_eq_true hyt
        refine hfirst x.1 ⟨hx, x.2, y.2, ?_, hk.symm⟩
        exact (List.singleton_sublist.mpr hmem).cons_cons x
      have hhead : editsOf (x :: h) t = editsOf h t := by simp [editsOf, hx]
      have htail : ((x :: h).filter fun y ↦ y.1 ≠ t) = x :: h.filter fun y ↦ y.1 ≠ t := by
        simp [hx]
      rw [replay_append, replay_comm hcomm hno, hhead, htail, List.map_cons, replay_append,
        replay_cons]

/-- The transactions one after the other. -/
def serial (h : List (τ × ε)) (order : List τ) : List ε := order.flatMap (editsOf h)

/-- **A history without a cycle comes to the same as its transactions one after the
other, in some order.** -/
theorem exists_serial
    (hcomm : ∀ e f s, key e ≠ key f → apply e (apply f s) = apply f (apply e s))
    (hs : Serializable key h) {ids : List τ} (hnodup : ids.Nodup)
    (hids : ∀ t, t ∈ h.map Prod.fst → t ∈ ids) :
    ∃ order, order.Perm ids ∧ replay apply s (h.map Prod.snd) = replay apply s (serial h order) := by
  induction hn : ids.length generalizing ids h s with
  | zero =>
    obtain rfl := List.length_eq_zero_iff.mp hn
    have hnil : h = [] := by
      rw [List.eq_nil_iff_forall_not_mem]
      intro x hx
      exact absurd (hids x.1 (List.mem_map_of_mem hx)) List.not_mem_nil
    subst hnil
    exact ⟨[], .refl _, rfl⟩
  | succ n ih =>
    have hne : ids ≠ [] := by
      rintro rfl
      cases hn
    obtain ⟨t, ht, hmin⟩ := exists_minimal (r := Relation.TransGen (Before key h)) hs
      (fun _ _ _ h₁ h₂ ↦ h₁.trans h₂) hne
    have hfirst : ∀ r, ¬ Before key h r t := by
      intro r hb
      obtain ⟨e, he⟩ := hb.mem.1
      exact hmin r (hids r (List.mem_map_of_mem he)) (.single hb)
    -- the rest of the history, without the transaction that goes first
    set h' := h.filter fun x ↦ x.1 ≠ t with hh'
    have hs' : Serializable key h' := fun r hr ↦
      hs r (Relation.TransGen.mono (fun _ _ hb ↦ hb.mono List.filter_sublist) r r hr)
    have hids' : ∀ r, r ∈ h'.map Prod.fst → r ∈ ids.erase t := by
      intro r hr
      obtain ⟨x, hx, rfl⟩ := List.mem_map.mp hr
      obtain ⟨hx, hxt⟩ := List.mem_filter.mp hx
      exact (List.mem_erase_of_ne (of_decide_eq_true hxt)).mpr
        (hids x.1 (List.mem_map_of_mem hx))
    have hlen : (ids.erase t).length = n := by rw [List.length_erase_of_mem ht, hn]; rfl
    obtain ⟨order, hperm, heq⟩ := ih (s := replay apply s (editsOf h t)) hs'
      (hnodup.erase t) hids' hlen
    refine ⟨t :: order, (hperm.cons t).trans (List.perm_cons_erase ht).symm, ?_⟩
    have hsame : serial h' order = serial h order := by
      refine List.flatMap_congr fun r hr ↦ ?_
      have hrt : r ≠ t := fun he ↦
        (List.Nodup.not_mem_erase hnodup) (he ▸ hperm.subset hr)
      simp only [editsOf, hh', List.filter_filter]
      congr 2
      funext x
      by_cases hx : x.1 = r <;> simp [hx, hrt]
    rw [replay_first hcomm hfirst, replay_append, heq, hsame, serial, serial,
      List.flatMap_cons, replay_append]

end

end Shellius.Lib
