import Shellius.Cli.Windows

/-!
# One login in several windows

A window whose memory has fallen behind the file never catches up, since nothing reads the file
again: once another window has refreshed, the token in its memory is taken for stolen as soon as
the grace period is over, and its saves put the old token back into the file.  `timely` is the
condition that no window refreshes or saves from a memory that has fallen behind, that one window
refreshes at a time, and that nobody goes on when the server has ended the session.
-/

namespace Shellius.Cli

open Lib

/-! ## The condition -/

/-- The server has refused to refresh. -/
def State.refused (s : State) : Bool :=
  s.presented.any fun x ↦
    match x.answer with
    | .rotated _ => false
    | _ => true

/-- The window has an answer that the file may not have. -/
def Phase.ahead : Phase → Bool
  | .received | .writing _ => true
  | .idle | .asking _ | .answered _ => false

/-- A refresh begins from a memory that has the token in the file, while nobody else is refreshing
and the session has not ended; a save writes the token that the memory has, which is the one in the
file or one that the window has just been given. -/
def timely (s : State) : Event → Bool
  | .refreshIfNeeded w =>
    (s.windows[w]?).all fun x ↦ !x.memory.expiring s.server.now ||
      (x.memory.refreshToken = s.file.refreshToken && s.quiet && !s.refused)
  | .writeSave w n =>
    (s.windows[w]?).all fun x ↦ (x.saves[n]?).all fun c ↦
      c.refreshToken = x.memory.refreshToken &&
        (x.memory.refreshToken = s.file.refreshToken || x.phase.ahead)
  | .load | .serve _ | .receive _ | .copy _ | .write _ | .refreshPermissions .. | .save _
  | .tick _ => true

/-- A step that meets the condition. -/
def Timely (s : State) (e : Event) (_ : State) : Prop := timely s e = true

/-! ## The invariant -/

/-- What the phase of a window says about the token that was issued last. -/
def Fits (newest : Nat) (file : Option Nat) (refused : Bool) (x : Window) : Prop :=
  match x.phase with
  | .idle => True
  | .asking token => token = newest ∧ file = some newest ∧ refused = false
  | .answered (.rotated token) => token = newest
  | .answered _ => file = some newest
  | .received => x.memory.refreshToken = some newest
  | .writing c => c.refreshToken = some newest ∧ x.memory.refreshToken = some newest

structure Inv (s : State) : Prop where
  drawn : ∀ r ∈ s.server.tokens, r.id < s.server.next
  newest : s.newest < s.server.next
  /-- The token that was issued last has not been rotated away. -/
  kept : ∀ t, s.newest ≤ t → s.rotatedAt t = none
  live : s.refused = false → (∃ r ∈ s.server.tokens, r.id = s.newest) ∧
    ∀ r ∈ s.server.tokens, r.id = s.newest → r.revokedAt = none
  one : ∀ (i j : Nat) x y, s.windows[i]? = some x → s.windows[j]? = some y → x.phase ≠ .idle →
    y.phase ≠ .idle → i = j
  fits : ∀ (i : Nat) x, s.windows[i]? = some x →
    Fits s.newest s.file.refreshToken s.refused x
  file : s.quiet = true → s.file.refreshToken = some s.newest
  presented : ∀ x ∈ s.presented, x.rotatedAt = none ∧ x.answer ≠ .stolen

section

variable {cfg : Refresh.Config} {s s' : State} {e : Event} {x x' : Window} {w : Nat}

theorem quiet_iff : s.quiet = true ↔
    ∀ (i : Nat) x, s.windows[i]? = some x → x.phase = .idle := by
  rw [State.quiet, List.all_eq_true]
  constructor
  · intro h i x hx
    exact of_decide_eq_true (h x (List.mem_of_getElem? hx))
  · intro h x hx
    obtain ⟨i, hi⟩ := List.mem_iff_getElem?.mp hx
    exact decide_eq_true (h i x hi)

theorem Fits.of_idle {newest : Nat} {file : Option Nat} {refused : Bool} (h : x.phase = .idle) :
    Fits newest file refused x := by
  rw [Fits, h]
  trivial

theorem getElem?_set (hx : s.windows[w]? = some x) (i : Nat) :
    (s.windows.set w x')[i]? = if w = i then some x' else s.windows[i]? := by
  rw [List.getElem?_set]
  by_cases hwi : w = i
  · obtain ⟨hlt, -⟩ := List.getElem?_eq_some_iff.mp hx
    rw [if_pos hwi, if_pos hwi, if_pos hlt]
  · rw [if_neg hwi, if_neg hwi]

theorem Inv.others_idle (h : Inv s) (hx : s.windows[w]? = some x) (hbusy : x.phase ≠ .idle)
    {i : Nat} {y : Window} (hi : i ≠ w) (hy : s.windows[i]? = some y) : y.phase = .idle := by
  by_contra hne
  exact hi (h.one i w y x hy hx hne hbusy)

theorem Inv.setWindow (h : Inv s) {file : Credentials} (hx : s.windows[w]? = some x)
    (hone : x'.phase ≠ .idle → x.phase ≠ .idle ∨ s.quiet = true)
    (hfits : Fits s.newest file.refreshToken s.refused x')
    (hothers : file.refreshToken = s.file.refreshToken ∨ x.phase ≠ .idle)
    (hfile : x'.phase = .idle → (x.phase = .idle → s.quiet = true) →
      file.refreshToken = some s.newest) :
    Inv { s with windows := s.windows.set w x', file } := by
  -- the others are idle unless they are the one that refreshes
  have hidle : ∀ (i : Nat) y, i ≠ w → s.windows[i]? = some y →
      x.phase ≠ .idle ∨ s.quiet = true → y.phase = .idle := by
    intro i y hi hy hbusy
    rcases hbusy with hbusy | hquiet
    · exact h.others_idle hx hbusy hi hy
    · exact quiet_iff.mp hquiet i y hy
  refine { h with one := ?_, fits := ?_, file := ?_ }
  · intro i j y z hy hz hyne hzne
    rw [getElem?_set hx] at hy hz
    by_cases hi : w = i
    · by_cases hj : w = j
      · exact hi.symm.trans hj
      · rw [if_pos hi] at hy
        rw [if_neg hj] at hz
        obtain rfl := Option.some.inj hy
        exact absurd (hidle j z (Ne.symm hj) hz (hone hyne)) hzne
    · rw [if_neg hi] at hy
      by_cases hj : w = j
      · rw [if_pos hj] at hz
        obtain rfl := Option.some.inj hz
        exact absurd (hidle i y (Ne.symm hi) hy (hone hzne)) hyne
      · rw [if_neg hj] at hz
        exact h.one i j y z hy hz hyne hzne
  · intro i y hy
    rw [getElem?_set hx] at hy
    by_cases hi : w = i
    · rw [if_pos hi] at hy
      obtain rfl := Option.some.inj hy
      exact hfits
    · rw [if_neg hi] at hy
      rcases hothers with hsame | hbusy
      · show Fits s.newest file.refreshToken s.refused y
        rw [hsame]
        exact h.fits i y hy
      · exact .of_idle (hidle i y (Ne.symm hi) hy (.inl hbusy))
  · intro hquiet
    have hself : x'.phase = .idle :=
      quiet_iff.mp hquiet w x' ((getElem?_set hx w).trans (if_pos rfl))
    refine hfile hself fun hxidle ↦ quiet_iff.mpr fun i y hy ↦ ?_
    by_cases hi : w = i
    · subst hi
      obtain rfl := Option.some.inj (hx.symm.trans hy)
      exact hxidle
    · exact quiet_iff.mp hquiet i y ((getElem?_set hx i).trans ((if_neg hi).trans hy))

theorem Inv.setMemory (h : Inv s) (hx : s.windows[w]? = some x) (hphase : x'.phase = x.phase)
    (htoken : x'.memory.refreshToken = x.memory.refreshToken) : Inv (s.setWindow w x') := by
  refine h.setWindow hx (fun hne ↦ .inl (hphase ▸ hne)) ?_ (.inl rfl) fun hidle hquiet ↦ ?_
  · have hfits := h.fits w x hx
    unfold Fits at hfits ⊢
    rw [hphase, htoken]
    exact hfits
  · exact h.file (hquiet (hphase ▸ hidle))

/-- The server answers the one window that refreshes. -/
theorem Inv.serve (h : Inv s) {token : Nat} (hx : s.windows[w]? = some x)
    (hphase : x.phase = .asking token) : Inv (s.serve cfg w x token) := by
  have hfits := h.fits w x hx
  rw [Fits, hphase] at hfits
  obtain ⟨rfl, hfile, hrefused⟩ := hfits
  have hbusy : x.phase ≠ .idle := by
    rw [hphase]
    exact Phase.noConfusion
  obtain ⟨hrow, hlive⟩ := h.live hrefused
  have hout : Refresh.Outcome s.server (Refresh.refresh cfg s.server s.newest) :=
    Refresh.refresh_live h.drawn hrow hlive
  generalize hr : Refresh.refresh cfg s.server s.newest = r at hout
  -- the window is still the only one that refreshes
  have hset : ∀ {a : Refresh.Answer} (i : Nat) y,
      (s.windows.set w { x with phase := .answered a })[i]? = some y →
      (w = i ∧ y = { x with phase := .answered a }) ∨ y.phase = .idle := by
    intro a i y hy
    rw [getElem?_set hx] at hy
    by_cases hi : w = i
    · rw [if_pos hi] at hy
      exact .inl ⟨hi, (Option.some.inj hy).symm⟩
    · rw [if_neg hi] at hy
      exact .inr (h.others_idle hx hbusy (Ne.symm hi) hy)
  have hone : ∀ {a : Refresh.Answer} (i j : Nat) y z,
      (s.windows.set w { x with phase := .answered a })[i]? = some y →
      (s.windows.set w { x with phase := .answered a })[j]? = some z →
      y.phase ≠ .idle → z.phase ≠ .idle → i = j := by
    intro a i j y z hy hz hyne hzne
    obtain ⟨hi, -⟩ := (hset i y hy).resolve_right hyne
    obtain ⟨hj, -⟩ := (hset j z hz).resolve_right hzne
    exact hi.symm.trans hj
  have hloud : ∀ {a : Refresh.Answer} {t : State},
      t.windows = s.windows.set w { x with phase := .answered a } → t.quiet = true → False := by
    intro a t ht hquiet
    have hself := quiet_iff.mp hquiet w { x with phase := .answered a }
      (by rw [ht, getElem?_set hx, if_pos rfl])
    cases hself
  have hpresented : ∀ {a : Refresh.Answer}, a ≠ .stolen →
      ∀ y ∈ s.presented ++ [⟨s.newest, s.server.now, s.rotatedAt s.newest, a⟩],
        y.rotatedAt = none ∧ y.answer ≠ .stolen := by
    intro a ha y hy
    rcases List.mem_append.mp hy with hy | hy
    · exact h.presented y hy
    · obtain rfl := List.mem_singleton.mp hy
      exact ⟨h.kept s.newest (Nat.le_refl _), ha⟩
  unfold State.serve
  rw [hr]
  cases hout with
  | @rotated t hdrawn hnow hnext hrow' hlive' =>
    refine ⟨hdrawn, hnext, fun n hn ↦ ?_, fun _ ↦ ⟨hrow', hlive'⟩, hone, fun i y hy ↦ ?_,
      fun hquiet ↦ (hloud rfl hquiet).elim, hpresented Refresh.Answer.noConfusion⟩
    · have hlt : s.newest < s.server.next + 1 := Nat.lt_succ_of_lt h.newest
      have hne : n ≠ s.newest := by
        rintro rfl
        exact absurd hlt (Nat.not_lt.mpr hn)
      exact (Function.update_of_ne hne _ _).trans
        (h.kept n (Nat.le_of_lt (Nat.lt_of_lt_of_le hlt hn)))
    · rcases hset i y hy with ⟨-, rfl⟩ | hidle
      · rfl
      · exact .of_idle hidle
  | @ended t hdrawn hnow hnext message =>
    refine ⟨hdrawn, Nat.lt_of_lt_of_le h.newest hnext, h.kept, fun hno ↦ ?_, hone, fun i y hy ↦ ?_,
      fun hquiet ↦ (hloud rfl hquiet).elim, hpresented Refresh.Answer.noConfusion⟩
    · rw [State.refused, List.any_append] at hno
      simp at hno
    · rcases hset i y hy with ⟨-, rfl⟩ | hidle
      · exact hfile
      · exact .of_idle hidle

theorem Inv.load (h : Inv s) : Inv { s with windows := s.windows ++ [{ memory := s.file }] } := by
  have hwindow : ∀ {i : Nat} {y : Window},
      (s.windows ++ [{ memory := s.file }])[i]? = some y →
      s.windows[i]? = some y ∨ y.phase = .idle := by
    intro i y hy
    rw [List.getElem?_append] at hy
    split at hy
    · exact .inl hy
    · have hmem := List.mem_of_getElem? hy
      rw [List.mem_singleton.mp hmem]
      exact .inr rfl
  refine { h with one := ?_, fits := ?_, file := ?_ }
  · intro i j x y hx hy hxne hyne
    exact h.one i j x y ((hwindow hx).resolve_right hxne) ((hwindow hy).resolve_right hyne)
      hxne hyne
  · intro i x hx
    rcases hwindow hx with hx | hidle
    · exact h.fits i x hx
    · exact .of_idle hidle
  · intro hquiet
    refine h.file (List.all_eq_true.mpr fun x hx ↦ ?_)
    exact List.all_eq_true.mp hquiet x (List.mem_append_left _ hx)

/-- A step that meets the condition keeps the invariant. -/
theorem Inv.step (h : Inv s) (hs : step cfg s e = some s') (htime : Timely s e s') : Inv s' := by
  cases e with
  | load =>
    obtain rfl := Option.some.inj hs
    exact h.load
  | refreshIfNeeded w =>
    obtain ⟨x, hx, hs⟩ := Option.bind_eq_some_iff.mp hs
    split at hs
    · rename_i hidle
      split at hs
      · rename_i token htoken
        split at hs
        · rename_i hexpiring
          obtain rfl := Option.some.inj hs
          rw [Timely, timely, hx, Option.all_some, hexpiring, Bool.not_true, Bool.false_or,
            Bool.and_eq_true, Bool.and_eq_true, decide_eq_true_iff] at htime
          obtain ⟨⟨hsame, hquiet⟩, hrefused⟩ := htime
          have hfile := h.file hquiet
          obtain rfl := Option.some.inj (htoken.symm.trans (hsame.trans hfile))
          refine h.setWindow hx (fun _ ↦ .inr hquiet) ⟨rfl, hfile, ?_⟩ (.inl rfl)
            fun hbusy ↦ by cases hbusy
          simpa using hrefused
        · obtain rfl := Option.some.inj hs
          exact h
      · obtain rfl := Option.some.inj hs
        exact h
    · cases hs
  | serve w =>
    obtain ⟨x, hx, hs⟩ := Option.bind_eq_some_iff.mp hs
    split at hs
    · rename_i token hphase
      obtain rfl := Option.some.inj hs
      exact h.serve hx hphase
    · cases hs
  | receive w =>
    obtain ⟨x, hx, hs⟩ := Option.bind_eq_some_iff.mp hs
    have hfits := h.fits w x hx
    split at hs
    · rename_i token hphase
      obtain rfl := Option.some.inj hs
      rw [Fits, hphase] at hfits
      obtain rfl : token = s.newest := hfits
      refine h.setWindow hx (fun _ ↦ .inl ?_) rfl (.inl rfl) fun hidle ↦ by cases hidle
      rw [hphase]
      exact Phase.noConfusion
    · rename_i answer hrotated hphase
      obtain rfl := Option.some.inj hs
      refine h.setWindow hx (fun hne ↦ absurd rfl hne) (.of_idle rfl) (.inl rfl) fun _ _ ↦ ?_
      rw [Fits, hphase] at hfits
      cases answer with
      | rotated token => exact absurd rfl (hrotated token)
      | conflict | stolen | unauthorized => exact hfits
    · cases hs
  | copy w =>
    obtain ⟨x, hx, hs⟩ := Option.bind_eq_some_iff.mp hs
    have hfits := h.fits w x hx
    split at hs
    · rename_i hphase
      obtain rfl := Option.some.inj hs
      rw [Fits, hphase] at hfits
      refine h.setWindow hx (fun _ ↦ .inl ?_) ⟨hfits, hfits⟩ (.inl rfl) fun hidle ↦ by cases hidle
      rw [hphase]
      exact Phase.noConfusion
    · cases hs
  | write w =>
    obtain ⟨x, hx, hs⟩ := Option.bind_eq_some_iff.mp hs
    have hfits := h.fits w x hx
    split at hs
    · rename_i c hphase
      obtain rfl := Option.some.inj hs
      rw [Fits, hphase] at hfits
      refine h.setWindow hx (fun hne ↦ absurd rfl hne) (.of_idle rfl) (.inr ?_)
        fun _ _ ↦ hfits.1
      rw [hphase]
      exact Phase.noConfusion
    · cases hs
  | refreshPermissions w me =>
    obtain ⟨x, hx, rfl⟩ := Option.map_eq_some_iff.mp hs
    exact h.setMemory hx rfl rfl
  | save w =>
    obtain ⟨x, hx, rfl⟩ := Option.map_eq_some_iff.mp hs
    exact h.setMemory hx rfl rfl
  | writeSave w n =>
    obtain ⟨x, hx, hs⟩ := Option.bind_eq_some_iff.mp hs
    obtain ⟨c, hc, rfl⟩ := Option.map_eq_some_iff.mp hs
    rw [Timely, timely, hx, Option.all_some, hc, Option.all_some, Bool.and_eq_true,
      Bool.or_eq_true, decide_eq_true_iff, decide_eq_true_iff] at htime
    obtain ⟨hcopy, hsame | hahead⟩ := htime
    · -- the file keeps its token
      have htoken : c.refreshToken = s.file.refreshToken := hcopy.trans hsame
      refine h.setWindow hx (fun hne ↦ .inl hne) ?_ (.inl htoken) fun hidle hquiet ↦ ?_
      · rw [htoken]
        exact h.fits w x hx
      · rw [htoken]
        exact h.file (hquiet hidle)
    · -- the window has been given the token that it writes
      have hfits := h.fits w x hx
      have hnewest : x.memory.refreshToken = some s.newest := by
        unfold Fits at hfits
        cases hphase : x.phase with
        | received =>
          rw [hphase] at hfits
          exact hfits
        | writing c =>
          rw [hphase] at hfits
          exact hfits.2
        | idle | asking | answered =>
          rw [hphase] at hahead
          cases hahead
      have hbusy : x.phase ≠ .idle := by
        intro hidle
        rw [hidle] at hahead
        cases hahead
      refine h.setWindow hx (fun _ ↦ .inl hbusy) ?_ (.inr hbusy) fun hidle ↦ absurd hidle hbusy
      unfold Fits at hfits ⊢
      dsimp only
      cases hphase : x.phase with
      | received => exact hnewest
      | writing c =>
        rw [hphase] at hfits
        exact hfits
      | idle | asking | answered =>
        rw [hphase] at hahead
        cases hahead
  | tick now =>
    simp only [Cli.step] at hs
    split at hs
    · obtain rfl := Option.some.inj hs
      exact { h with }
    · cases hs

/-! ## Runs -/

theorem signedIn_inv {server : Refresh.Store} (hdrawn : Refresh.Drawn server) (userId : Id)
    (profile : Profile) (tokenExpiresAt : Millis) :
    Inv (signedIn cfg server userId profile tokenExpiresAt) where
  drawn := hdrawn.effect (.issue userId)
  newest := Nat.lt_succ_self _
  kept _ _ := rfl
  live _ := by
    have htokens : (signedIn cfg server userId profile tokenExpiresAt).server.tokens =
        server.tokens ++ [Refresh.issuedToken cfg server userId] := rfl
    rw [htokens]
    constructor
    · exact ⟨_, List.mem_append_right _ (List.mem_singleton_self _), rfl⟩
    · intro r hr hid
      rcases List.mem_append.mp hr with hr | hr
      · have hlt : r.id < server.next := hdrawn r hr
        rw [hid] at hlt
        exact absurd hlt (Nat.not_lt.mpr (Nat.le_succ _))
      · rw [List.mem_singleton.mp hr]
        rfl
  one i j x y hx := by cases hx
  fits i x hx := by cases hx
  file _ := rfl
  presented x hx := by cases hx

theorem Inv.shared (h : Inv s) : Shared cfg s where
  presented x hx := by
    obtain ⟨hkept, hanswer⟩ := h.presented x hx
    refine ⟨?_, hanswer⟩
    rw [Presented.late, hkept, Option.any_none]
  file := h.file

/-- As long as the windows keep to the condition, they share the login. -/
theorem windows_share_login {server : Refresh.Store} (hdrawn : Refresh.Drawn server) {userId : Id}
    {profile : Profile} {tokenExpiresAt : Millis} {es : List Event}
    (hrun : Run (step cfg) Timely (signedIn cfg server userId profile tokenExpiresAt) es s) :
    Shared cfg s :=
  (hrun.invariant (signedIn_inv hdrawn userId profile tokenExpiresAt)
    fun _ _ _ h hs htime ↦ h.step hs htime).shared

end

/-! ## One window, and two -/

def oneUser : Refresh.Store where
  now := 0
  users := [{ id := "u1", orgId := "o1" }]

def oneLogin : State := signedIn {} oneUser "u1" {} (30 * 60 * 1000)

def refreshing (w : Nat) : List Event := [.refreshIfNeeded w, .serve w, .receive w, .copy w, .write w]

def inTurn : List Event :=
  [.load, .tick (31 * 60 * 1000)] ++ refreshing 0 ++ [.save 0, .writeSave 0 0, .load] ++
    refreshing 1

theorem windows_share_login_in_turn :
    ∃ s, Run (step {}) Timely oneLogin inTurn s ∧ Shared {} s ∧
      s.presented.map (·.token) = [1, 3] := by
  obtain ⟨s, hs⟩ : ∃ s, execIf (step {}) timely oneLogin inTurn = some s := ⟨_, rfl⟩
  have hrun : Run (step {}) Timely oneLogin inTurn s := run_of_execIf hs
  have hdrawn : Refresh.Drawn oneUser := by
    intro r hr
    cases hr
  refine ⟨s, hrun, windows_share_login hdrawn hrun, ?_⟩
  obtain rfl := Option.some.inj hs
  rfl

def sideBySide : List Event :=
  [.load, .load, .tick (31 * 60 * 1000)] ++ refreshing 0 ++
    [.tick (32 * 60 * 1000), .refreshIfNeeded 1, .serve 1]

def putBack : List Event :=
  [.load, .load, .tick (31 * 60 * 1000)] ++ refreshing 0 ++ [.save 1, .writeSave 1 0]

/-- A window that has fallen behind is taken for a thief, and its saves undo the refresh. -/
theorem windows_fall_behind :
    (¬ ∀ es s, Run (step {}) free oneLogin es s →
      ∀ x ∈ s.presented, x.late {} = false ∧ x.answer ≠ .stolen) ∧
    ¬ ∀ es s, Run (step {}) free oneLogin es s →
      s.quiet = true → s.file.refreshToken = some s.newest := by
  constructor
  · intro hall
    obtain ⟨s, hs⟩ : ∃ s, exec (step {}) oneLogin sideBySide = some s := ⟨_, rfl⟩
    have hpresented := hall sideBySide s (run_of_exec hs)
    obtain rfl := Option.some.inj hs
    exact (hpresented _ (List.mem_cons_of_mem _ (List.mem_singleton_self _))).2 rfl
  · intro hall
    obtain ⟨s, hs⟩ : ∃ s, exec (step {}) oneLogin putBack = some s := ⟨_, rfl⟩
    have hfile := hall putBack s (run_of_exec hs)
    obtain rfl := Option.some.inj hs
    cases hfile rfl

end Shellius.Cli
