import Mathlib.Logic.Function.Basic

/-!
# Tickets that are redeemed once

A ticket is issued, found by any number of parties, and redeemed by whoever has
the right answer; a wrong answer is put on record, and with `limit` of them the
ticket is burnt.  The parties find the ticket, check an answer and act on the
outcome in separate steps, in any order.

`Sound` is what holds of a ticket and of what the parties are doing with it as
long as nobody checks an answer while another's check is still open: the answers
checked are those on record, they are no more than `limit`, and the ticket is
redeemed at most once.
-/

namespace Shellius.Lib

/-- The state of a ticket. -/
structure Ticket where
  issued : Bool
  live : Bool
  /-- The wrong answers on record. -/
  recorded : Nat
  /-- The answers checked so far. -/
  checked : Nat
  /-- How often the ticket was redeemed. -/
  redeemed : Nat

/-- What a party is doing with a ticket. -/
inductive Stage
  | /-- Nothing that depends on the ticket. -/
    idle
  | /-- It has found the ticket. -/
    found
  | /-- It has checked a wrong answer, which is not on record yet. -/
    wrong
  | /-- It has put one wrong answer too many on record. -/
    last
  | /-- It has checked the right answer. -/
    right
  | /-- It has burnt the ticket and is about to redeem it. -/
    spent
  | /-- It has burnt the ticket and is clearing the record. -/
    closing

/-- The party has checked an answer and not yet acted on the outcome. -/
def Stage.isOpen : Stage → Bool
  | .wrong | .last | .right | .spent => true
  | .idle | .found | .closing => false

namespace Ticket

/-- The states of a ticket and its parties that are reached when checks do not
overlap. -/
structure Sound (limit : Nat) (t : Ticket) (stages : Nat → Stage) : Prop where
  unissued : t.issued = false → t.live = false ∧ t.recorded = 0 ∧ t.checked = 0 ∧
    t.redeemed = 0 ∧ ∀ i, stages i = .idle
  unique : ∀ i j, (stages i).isOpen → (stages j).isOpen → i = j
  checked_le : t.checked ≤ limit
  counted : t.live → (∀ i, ¬ (stages i).isOpen) → t.recorded = t.checked ∧ t.checked < limit
  counting : t.live → ∀ i, stages i = .wrong → t.recorded + 1 = t.checked
  burnt : ∀ i, stages i = .spent ∨ stages i = .closing → t.live = false
  redeemed_le : t.redeemed ≤ 1
  fresh : ∀ i, stages i = .right ∨ stages i = .spent → t.redeemed = 0
  done : t.redeemed ≠ 0 → t.live = false

variable {limit n : Nat} {t t' : Ticket} {stages : Nat → Stage} {i : Nat} {b : Stage}

theorem sound_unused (issued : Bool) : Sound limit ⟨issued, false, 0, 0, 0⟩ fun _ ↦ .idle where
  unissued _ := ⟨rfl, rfl, rfl, rfl, fun _ ↦ rfl⟩
  unique := by simp [Stage.isOpen]
  checked_le := Nat.zero_le _
  counted := by simp
  counting := by simp
  burnt := by simp
  redeemed_le := Nat.zero_le _
  fresh := by simp
  done := by simp

namespace Sound

/-! ## Updates -/

theorem issued (h : Sound limit t stages) (hi : stages i ≠ .idle) : t.issued = true := by
  by_contra hn
  exact hi ((h.unissued (by simpa using hn)).2.2.2.2 i)

theorem issued_of_live (h : Sound limit t stages) (hl : t.live) : t.issued = true := by
  by_contra hn
  simp [(h.unissued (by simpa using hn)).1] at hl

theorem unique_update (h : Sound limit t stages)
    (hb : b.isOpen → ∀ j, j ≠ i → ¬ (stages j).isOpen) (j l : Nat)
    (hj : (Function.update stages i b j).isOpen) (hl : (Function.update stages i b l).isOpen) :
    j = l := by
  by_cases hji : j = i <;> by_cases hli : l = i
  · exact hji.trans hli.symm
  · subst hji
    simp only [Function.update_self, Function.update_of_ne hli] at hj hl
    exact (hb hj l hli hl).elim
  · subst hli
    simp only [Function.update_self, Function.update_of_ne hji] at hj hl
    exact (hb hl j hji hj).elim
  · simp only [Function.update_of_ne hji, Function.update_of_ne hli] at hj hl
    exact h.unique j l hj hl

theorem not_open_of_ne (h : Sound limit t stages) (hi : (stages i).isOpen) {j : Nat}
    (hj : j ≠ i) : ¬ (stages j).isOpen := fun ho ↦ hj (h.unique j i ho hi)

theorem update_of_dead (h : Sound limit t stages) (hissued : t'.issued = true)
    (hlive : t'.live = false) (hchecked : t'.checked = t.checked) (hredeemed : t'.redeemed ≤ 1)
    (hb : b.isOpen → (stages i).isOpen) (hbf : b = .right ∨ b = .spent → t'.redeemed = 0)
    (hf : ∀ j, j ≠ i → stages j = .right ∨ stages j = .spent → t'.redeemed = 0) :
    Sound limit t' (Function.update stages i b) where
  unissued hn := by simp [hissued] at hn
  unique := h.unique_update fun ho _ hj ↦ h.not_open_of_ne (hb ho) hj
  checked_le := hchecked ▸ h.checked_le
  counted hl := by simp [hlive] at hl
  counting hl := by simp [hlive] at hl
  burnt _ _ := hlive
  redeemed_le := hredeemed
  fresh := (Function.forall_update_iff stages
    fun _ x ↦ x = .right ∨ x = .spent → t'.redeemed = 0).mpr ⟨hbf, hf⟩
  done _ := hlive

/-! ## The steps of a party -/

theorem move (h : Sound limit t stages) (hb : b = .idle ∨ b = .found ∧ t.issued = true)
    (hdead : (stages i).isOpen → t.live = false) :
    Sound limit t (Function.update stages i b) where
  unissued hn := by
    obtain ⟨h₁, h₂, h₃, h₄, h₅⟩ := h.unissued hn
    rcases hb with rfl | ⟨-, hi⟩
    · exact ⟨h₁, h₂, h₃, h₄, (Function.forall_update_iff stages fun _ x ↦ x = .idle).mpr
        ⟨rfl, fun j _ ↦ h₅ j⟩⟩
    · simp [hi] at hn
  unique := h.unique_update fun ho ↦ by rcases hb with rfl | ⟨rfl, -⟩ <;> simp [Stage.isOpen] at ho
  checked_le := h.checked_le
  counted hl hno := h.counted hl fun j ho ↦ by
    by_cases hj : j = i
    · subst hj; simp [hdead ho] at hl
    · exact hno j (by rwa [Function.update_of_ne hj])
  counting hl := (Function.forall_update_iff stages
    fun _ x ↦ x = .wrong → t.recorded + 1 = t.checked).mpr
      ⟨by rcases hb with rfl | ⟨rfl, -⟩ <;> simp, fun j _ ↦ h.counting hl j⟩
  burnt := (Function.forall_update_iff stages
    fun _ x ↦ x = .spent ∨ x = .closing → t.live = false).mpr
      ⟨by rcases hb with rfl | ⟨rfl, -⟩ <;> simp, fun j _ ↦ h.burnt j⟩
  redeemed_le := h.redeemed_le
  fresh := (Function.forall_update_iff stages
    fun _ x ↦ x = .right ∨ x = .spent → t.redeemed = 0).mpr
      ⟨by rcases hb with rfl | ⟨rfl, -⟩ <;> simp, fun j _ ↦ h.fresh j⟩
  done := h.done

theorem check (h : Sound limit t stages) (hl : t.live) (hfree : ∀ j, ¬ (stages j).isOpen)
    (hb : b = .wrong ∨ b = .right) :
    Sound limit { t with checked := t.checked + 1 } (Function.update stages i b) := by
  obtain ⟨hrec, hlt⟩ := h.counted hl hfree
  have hzero : t.redeemed = 0 := by
    by_contra hn
    simp [h.done hn] at hl
  have hopen : b.isOpen := by rcases hb with rfl | rfl <;> rfl
  exact
    { unissued := fun hn ↦ by simp [h.issued_of_live hl] at hn
      unique := h.unique_update fun _ j _ ↦ hfree j
      checked_le := hlt
      counted := fun _ hno ↦ (hno i (by rwa [Function.update_self])).elim
      counting := fun _ ↦ (Function.forall_update_iff stages
        fun _ x ↦ x = .wrong → t.recorded + 1 = t.checked + 1).mpr
          ⟨fun _ ↦ by rw [hrec], fun j _ hj ↦ (hfree j (by simp [hj, Stage.isOpen])).elim⟩
      burnt := (Function.forall_update_iff stages
        fun _ x ↦ x = .spent ∨ x = .closing → t.live = false).mpr
          ⟨by rcases hb with rfl | rfl <;> simp, fun j _ ↦ h.burnt j⟩
      redeemed_le := h.redeemed_le
      fresh := fun _ _ ↦ hzero
      done := h.done }

theorem record (h : Sound limit t stages) (hi : stages i = .wrong)
    (hn : t.live → n = t.recorded + 1)
    (hb : b = .last ∨ (b = .idle ∨ b = .found) ∧ n < limit) :
    Sound limit { t with recorded := n } (Function.update stages i b) := by
  have hopen : (stages i).isOpen := by simp [hi, Stage.isOpen]
  have hissued : t.issued = true := h.issued (i := i) (by simp [hi])
  exact
    { unissued := fun hn ↦ by simp [hissued] at hn
      unique := h.unique_update fun _ j hj ↦ h.not_open_of_ne hopen hj
      checked_le := h.checked_le
      counted := fun hl hno ↦ by
        have hcount : n = t.checked := (hn hl).trans (h.counting hl i hi)
        rcases hb with rfl | ⟨-, hlt⟩
        · exact (hno i (by simp [Stage.isOpen])).elim
        · exact ⟨hcount, hcount ▸ hlt⟩
      counting := fun _ ↦ (Function.forall_update_iff stages
        fun _ x ↦ x = .wrong → n + 1 = t.checked).mpr
          ⟨by rcases hb with rfl | ⟨rfl | rfl, -⟩ <;> simp,
            fun j hj hw ↦ (h.not_open_of_ne hopen hj (by simp [hw, Stage.isOpen])).elim⟩
      burnt := (Function.forall_update_iff stages
        fun _ x ↦ x = .spent ∨ x = .closing → t.live = false).mpr
          ⟨by rcases hb with rfl | ⟨rfl | rfl, -⟩ <;> simp, fun j _ ↦ h.burnt j⟩
      redeemed_le := h.redeemed_le
      fresh := (Function.forall_update_iff stages
        fun _ x ↦ x = .right ∨ x = .spent → t.redeemed = 0).mpr
          ⟨by rcases hb with rfl | ⟨rfl | rfl, -⟩ <;> simp, fun j _ ↦ h.fresh j⟩
      done := h.done }

theorem burn (h : Sound limit t stages)
    (hi : (stages i = .found ∨ stages i = .last) ∧ b = .closing ∨
      stages i = .right ∧ b = .spent) :
    Sound limit { t with live := false } (Function.update stages i b) := by
  have hissued : t.issued = true := h.issued (i := i) (by
    rcases hi with ⟨hi | hi, -⟩ | ⟨hi, -⟩ <;> simp [hi])
  refine h.update_of_dead hissued rfl rfl h.redeemed_le (fun ho ↦ ?_) (fun hs ↦ ?_)
    fun j _ ↦ h.fresh j
  · rcases hi with ⟨-, rfl⟩ | ⟨hi, -⟩
    · simp [Stage.isOpen] at ho
    · simp [hi, Stage.isOpen]
  · rcases hi with ⟨-, rfl⟩ | ⟨hi, -⟩
    · simp at hs
    · exact h.fresh i (.inl hi)

theorem clear (h : Sound limit t stages)
    (hi : stages i = .closing ∧ b = .idle ∨ stages i = .spent ∧ b = .spent) :
    Sound limit { t with recorded := 0 } (Function.update stages i b) := by
  have hissued : t.issued = true := h.issued (i := i) (by
    rcases hi with ⟨hi, -⟩ | ⟨hi, -⟩ <;> simp [hi])
  have hdead : t.live = false := h.burnt i (by
    rcases hi with ⟨hi, -⟩ | ⟨hi, -⟩ <;> simp [hi])
  refine h.update_of_dead hissued hdead rfl h.redeemed_le (fun ho ↦ ?_) (fun hs ↦ ?_)
    fun j _ ↦ h.fresh j
  · rcases hi with ⟨-, rfl⟩ | ⟨hi, -⟩
    · simp [Stage.isOpen] at ho
    · simp [hi, Stage.isOpen]
  · rcases hi with ⟨-, rfl⟩ | ⟨hi, -⟩
    · simp at hs
    · exact h.fresh i (.inr hi)

theorem redeem (h : Sound limit t stages) (hi : stages i = .spent) :
    Sound limit { t with redeemed := t.redeemed + 1 } (Function.update stages i .idle) := by
  have hopen : (stages i).isOpen := by simp [hi, Stage.isOpen]
  have hissued : t.issued = true := h.issued (i := i) (by simp [hi])
  refine h.update_of_dead hissued (h.burnt i (.inl hi)) rfl ?_ (by simp [Stage.isOpen]) (by simp)
    fun j hj hs ↦ ?_
  · simp [h.fresh i (.inr hi)]
  · exact (h.not_open_of_ne hopen hj (by rcases hs with hs | hs <;> simp [hs, Stage.isOpen])).elim

/-! ## The steps of others -/

/-- The ticket is issued, or stays as it is, or lapses with time. -/
theorem lapse (h : Sound limit t stages) (hissued : t.issued → t'.issued)
    (hchecked : t'.checked = t.checked) (hredeemed : t'.redeemed = t.redeemed)
    (hrec : t'.issued = false → t'.recorded = 0)
    (hlive : t'.live → t.live ∧ t'.recorded = t.recorded ∨
      t.issued = false ∧ t'.issued = true ∧ t'.recorded = 0) (hlimit : 0 < limit) :
    Sound limit t' stages where
  unissued hn := by
    have hn' : t.issued = false := by
      by_contra hne
      simp [hissued (by simpa using hne)] at hn
    obtain ⟨h₁, -, h₃, h₄, h₅⟩ := h.unissued hn'
    refine ⟨?_, hrec hn, hchecked.trans h₃, hredeemed.trans h₄, h₅⟩
    by_contra hl
    rcases hlive (by simpa using hl) with ⟨hl, -⟩ | ⟨-, hi, -⟩
    · simp [h₁] at hl
    · simp [hi] at hn
  unique := h.unique
  checked_le := hchecked ▸ h.checked_le
  counted hl hno := by
    rw [hchecked]
    rcases hlive hl with ⟨hl, he⟩ | ⟨hn, -, he⟩
    · exact he ▸ h.counted hl hno
    · rw [he, (h.unissued hn).2.2.1]
      exact ⟨rfl, hlimit⟩
  counting hl i hi := by
    rw [hchecked]
    rcases hlive hl with ⟨hl, he⟩ | ⟨hn, -, -⟩
    · exact he ▸ h.counting hl i hi
    · simp [(h.unissued hn).2.2.2.2 i] at hi
  burnt i hi := by
    by_contra hl
    rcases hlive (by simpa using hl) with ⟨hl, -⟩ | ⟨hn, -⟩
    · simp [h.burnt i hi] at hl
    · simp [(h.unissued hn).2.2.2.2 i] at hi
  redeemed_le := hredeemed ▸ h.redeemed_le
  fresh i hi := hredeemed.trans (h.fresh i hi)
  done hne := by
    rw [hredeemed] at hne
    by_contra hl
    rcases hlive (by simpa using hl) with ⟨hl, -⟩ | ⟨hn, -⟩
    · simp [h.done hne] at hl
    · exact hne (h.unissued hn).2.2.2.1

end Sound

end Ticket

end Shellius.Lib
