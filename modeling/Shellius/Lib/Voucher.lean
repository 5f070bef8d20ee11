import Shellius.Lib.Expiring
import Shellius.Lib.Pool

/-!
# Vouchers

A till issues vouchers for values, each good for a while, and pays a value out when its voucher is
handed in.  A voucher leaves the till by the step that reads it, whether it is paid or not, and no
voucher is issued twice.  So none is paid twice, nor late, nor with another value.
-/

namespace Shellius.Lib

/-- What has come of a voucher, and when. -/
inductive Receipt (κ α : Type*)
  | issued (k : κ) (v : α) (time : Int)
  | paid (k : κ) (v : α) (time : Int)

/-- The vouchers in a till, the clock, and the receipts, the last first. -/
structure Till (κ α : Type*) where
  vouchers : Expiring κ α Int := fun _ ↦ none
  now : Int
  receipts : List (Receipt κ α) := []

variable {κ α : Type*} [DecidableEq κ]

def Receipt.isIssued (k : κ) : Receipt κ α → Bool
  | .issued j .. => j = k
  | .paid .. => false

def Receipt.isPaid (k : κ) : Receipt κ α → Bool
  | .issued .. => false
  | .paid j .. => j = k

namespace Till

/-- What may happen at a till whose vouchers are good for `ttl`. -/
inductive Step (ttl : Int) (t : Till κ α) : Till κ α → Prop
  | issue {k : κ} {v : α} : t.receipts.any (Receipt.isIssued k) = false → Step ttl t
      { t with
        vouchers := t.vouchers.set k v (some (t.now + ttl))
        receipts := .issued k v t.now :: t.receipts }
  | pay {k : κ} {v : α} : t.vouchers.get t.now k = some v → Step ttl t
      { t with vouchers := t.vouchers.del k, receipts := .paid k v t.now :: t.receipts }
  | /-- A voucher is handed in and not paid. -/
    void (k : κ) : Step ttl t { t with vouchers := t.vouchers.del k }
  | wait {now : Int} : t.now ≤ now → Step ttl t { t with now }

structure Sound (ttl : Int) (t : Till κ α) : Prop where
  vouchers : ∀ k e, t.vouchers k = some e → t.receipts.countP (Receipt.isPaid k) = 0 ∧
    ∃ time, .issued k e.value time ∈ t.receipts ∧ time ≤ t.now ∧ e.expiresAt = some (time + ttl)
  once : ∀ k, t.receipts.countP (Receipt.isPaid k) ≤ 1
  paid : ∀ k v time, .paid k v time ∈ t.receipts →
    ∃ issuedAt, .issued k v issuedAt ∈ t.receipts ∧ issuedAt ≤ time ∧ time < issuedAt + ttl

variable {ttl : Int} {t t' : Till κ α} {k : κ} {v : α}

theorem Step.refl : Step ttl t t := .wait (le_refl _)

theorem sound_new (now : Int) : Sound ttl ({ now } : Till κ α) where
  vouchers _ _ h := by cases h
  once _ := Nat.zero_le _
  paid _ _ _ h := by cases h

/-- A voucher that was never issued was never paid. -/
theorem Sound.unpaid (h : Sound ttl t) (hnew : t.receipts.any (Receipt.isIssued k) = false) :
    t.receipts.countP (Receipt.isPaid k) = 0 := by
  refine List.countP_eq_zero.mpr fun r hr hpaid ↦ ?_
  cases r with
  | issued => cases hpaid
  | paid j v time =>
    obtain rfl : j = k := of_decide_eq_true hpaid
    obtain ⟨issuedAt, hmem, -⟩ := h.paid j v time hr
    exact List.any_eq_false.mp hnew _ hmem (decide_eq_true rfl)

theorem Sound.step (h : Sound ttl t) (hs : Step ttl t t') : Sound ttl t' := by
  cases hs with
  | @issue k v hnew =>
    have hcount : ∀ j, (.issued k v t.now :: t.receipts).countP (Receipt.isPaid j) =
        t.receipts.countP (Receipt.isPaid j) := fun j ↦
      List.countP_cons_of_neg (by simp [Receipt.isPaid])
    refine ⟨fun j e he ↦ ⟨(hcount j).trans ?_, ?_⟩, fun j ↦ (hcount j).trans_le (h.once j),
      fun j w time hpaid ↦ ?_⟩
    · by_cases hj : j = k
      · exact hj ▸ h.unpaid hnew
      · exact (h.vouchers j e ((Expiring.set_of_ne hj).symm.trans he)).1
    · by_cases hj : j = k
      · subst hj
        obtain rfl := Option.some.inj (Expiring.set_self.symm.trans he)
        exact ⟨t.now, List.mem_cons_self, le_refl _, rfl⟩
      · obtain ⟨-, time, hmem, hrest⟩ := h.vouchers j e ((Expiring.set_of_ne hj).symm.trans he)
        exact ⟨time, List.mem_cons_of_mem _ hmem, hrest⟩
    · obtain ⟨issuedAt, hmem, hrest⟩ :=
        h.paid j w time ((List.mem_cons.mp hpaid).resolve_left (by rintro ⟨⟩))
      exact ⟨issuedAt, List.mem_cons_of_mem _ hmem, hrest⟩
  | @pay k v hget =>
    obtain ⟨e, he, hlive, rfl⟩ := Expiring.get_eq_some.mp hget
    obtain ⟨hzero, issuedAt, hmem, hle, hexpires⟩ := h.vouchers k e he
    have hother : ∀ j ≠ k, (.paid k e.value t.now :: t.receipts).countP (Receipt.isPaid j) =
        t.receipts.countP (Receipt.isPaid j) := fun j hj ↦
      List.countP_cons_of_neg (by simpa [Receipt.isPaid] using hj.symm)
    refine ⟨fun j e' he' ↦ ?_, fun j ↦ ?_, fun j w time hpaid ↦ ?_⟩
    · by_cases hj : j = k
      · subst hj
        cases Expiring.del_self.symm.trans he'
      · obtain ⟨hj₀, time, hmem, hrest⟩ := h.vouchers j e' ((Expiring.del_of_ne hj).symm.trans he')
        exact ⟨(hother j hj).trans hj₀, time, List.mem_cons_of_mem _ hmem, hrest⟩
    · by_cases hj : j = k
      · subst hj
        rw [List.countP_cons_of_pos (by simp [Receipt.isPaid]), hzero]
      · exact (hother j hj).trans_le (h.once j)
    · rcases List.mem_cons.mp hpaid with heq | hpaid
      · cases heq
        exact ⟨issuedAt, List.mem_cons_of_mem _ hmem, hle,
          by simpa [Entry.live, hexpires] using hlive⟩
      · obtain ⟨issuedAt, hmem, hrest⟩ := h.paid j w time hpaid
        exact ⟨issuedAt, List.mem_cons_of_mem _ hmem, hrest⟩
  | void k =>
    refine { h with vouchers := fun j e he ↦ ?_ }
    by_cases hj : j = k
    · subst hj
      cases Expiring.del_self.symm.trans he
    · exact h.vouchers j e ((Expiring.del_of_ne hj).symm.trans he)
  | wait hle =>
    refine { h with vouchers := fun j e he ↦ ?_ }
    obtain ⟨hzero, time, hmem, hle', hexpires⟩ := h.vouchers j e he
    exact ⟨hzero, time, hmem, hle'.trans hle, hexpires⟩

/-- A machine keeps to a till, and notes only what is right. -/
theorem run_keepsTill {σ ε ν : Type*} {step : σ → ε → Option σ} {till : σ → Till κ α}
    {notes : σ → List ν} {receipt : ν → Receipt κ α} {Right : ν → Prop} {s s' : σ} {es : List ε}
    (hreceipts : ∀ s, (till s).receipts = (notes s).map receipt)
    (hstep : ∀ s e s', step s e = some s' → Step ttl (till s) (till s') ∧
      ∀ n ∈ notes s', n ∈ notes s ∨ Right n)
    (h : Run step free s es s') (hvouchers : (till s).vouchers = fun _ ↦ none)
    (hnotes : notes s = []) :
    (∀ k, (notes s').countP (fun n ↦ (receipt n).isPaid k) ≤ 1) ∧ ∀ n ∈ notes s', Right n ∧
      ∀ k v time, receipt n = .paid k v time → ∃ m ∈ notes s', Right m ∧ ∃ issuedAt,
        receipt m = .issued k v issuedAt ∧ issuedAt ≤ time ∧ time < issuedAt + ttl := by
  obtain ⟨hsound, hright⟩ : (till s').Sound ttl ∧ ∀ n ∈ notes s', Right n := by
    refine h.invariant (I := fun s ↦ (till s).Sound ttl ∧ ∀ n ∈ notes s, Right n) ⟨?_, ?_⟩ ?_
    · have hnew : till s = { now := (till s).now } := by
        rw [← hvouchers, ← List.map_nil, ← hnotes, ← hreceipts]
      exact hnew ▸ sound_new _
    · rw [hnotes]
      exact fun _ hn ↦ by cases hn
    · intro t e u ht hs _
      exact ⟨ht.1.step (hstep t e u hs).1, fun n hn ↦ ((hstep t e u hs).2 n hn).elim (ht.2 n) id⟩
  refine ⟨fun k ↦ ?_, fun n hn ↦ ⟨hright n hn, fun k v time hpaid ↦ ?_⟩⟩
  · have hcount := hsound.once k
    rwa [hreceipts, List.countP_map] at hcount
  · have hmem : .paid k v time ∈ (till s').receipts := hreceipts s' ▸ hpaid ▸ List.mem_map_of_mem hn
    obtain ⟨issuedAt, hissued, htime⟩ := hsound.paid k v time hmem
    obtain ⟨m, hm, hreceipt⟩ := List.mem_map.mp (hreceipts s' ▸ hissued)
    exact ⟨m, hm, hright m hm, issuedAt, hreceipt, htime⟩

end Till

end Shellius.Lib
