import Shellius.Cli.ActiveAccess

/-!
# Whose list is on the screen

The cache does not say whose list it holds, and a message does not say for whom it was fetched: an
account that signs in within a quarter of an hour sees the list of the account before, from the
cache or from a fetch that was under way, and when a session has expired an SSH session that ends
brings its list back.  A list that is read from the cache may have requests in it that have expired
since, and a list stays as it is while time passes.  `owned` is the condition that none of this
happens.
-/

namespace Shellius.Cli.ActiveAccess

open Lib

/-! ## The condition -/

/-- What a fetch has been answered, and what it will be answered next, is for one account. -/
def Fetch.isFor (f : Fetch) (account : Account) : Bool :=
  f.list.isFor account && f.asked.all (· = account)

def Cache.isFor (c : Cache) (now : Millis) (account : Account) : Bool :=
  (c.read now).all (·.isFor account)

/-- The cache has nothing of another account when the screen is made, nothing that was asked for
another one is under way when an account signs in, and nothing is left of a session that has expired
when an SSH session ends; and no request on the screen is past its expiry when its list arrives,
when the user comes back to it, and while time passes. -/
def owned (s : State) : Event → Bool
  | .start serverURL account =>
    serverURL = "" || account.all fun user ↦ s.cache.isFor s.now ⟨serverURL, user⟩
  | .signIn user =>
    s.app.all fun a ↦
      s.cache.isFor s.now ⟨a.serverURL, user⟩ && a.loaded.all (·.isFor ⟨a.serverURL, user⟩) &&
        a.fetches.all (·.isFor ⟨a.serverURL, user⟩)
  | .sshExited =>
    s.app.all fun a ↦
      match a.account with
      | some user => s.cache.isFor s.now ⟨a.serverURL, user⟩
      | none =>
        a.activeAccess.state ≠ .ready && a.loaded.isEmpty && a.fetches.all (·.asked.isNone)
  | .activeAccessLoaded n =>
    s.app.all fun a ↦ a.view ≠ .activeAccess || (a.loaded[n]?).all (·.current s.now)
  | .back =>
    s.app.all fun a ↦ a.activeAccess.state ≠ .ready || a.activeAccess.list.current s.now
  | .tick now => s.app.all fun a ↦ a.painted.all (·.current now)
  | _ => true

def Owned (s : State) (e : Event) (_ : State) : Prop := owned s e = true

/-! ## The invariant -/

/-- The screen has not been made. -/
structure Untouched (a : App) : Prop where
  view : a.view = .serverURL ∨ a.view = .login ∧ a.serverURL ≠ ""
  client : a.client = none
  activeAccess : a.activeAccess = {}
  fetches : a.fetches = []
  loaded : a.loaded = []

/-- What is on the screen and what is under way is for an account. -/
structure For (a : App) (account : Account) : Prop where
  list : a.activeAccess.state = .ready → a.activeAccess.list.isFor account = true
  fetches : ∀ f ∈ a.fetches, f.isFor account = true
  loaded : ∀ l ∈ a.loaded, l.isFor account = true

/-- Nobody is signed in, and no list will be on the screen. -/
structure Out (a : App) : Prop where
  client : a.client = none
  nothing : a.view = .login ∨
    a.activeAccess.state ≠ .ready ∧ a.loaded = [] ∧ ∀ f ∈ a.fetches, f.asked = none

structure Shown (now : Millis) (a : App) : Prop where
  serverURL : a.serverURL ≠ ""
  view : a.view ≠ .serverURL
  client : ∀ c ∈ a.client, c = a.serverURL
  noClient : a.client = none → a.account = none
  screen : a.activeAccess.client = a.serverURL
  clients : ∀ f ∈ a.fetches, f.client = a.serverURL
  signedIn : ∀ account, a.signedIn = some account → For a account
  signedOut : a.account = none → Out a
  current : ∀ l ∈ a.painted, l.current now = true

def Inv (s : State) : Prop := ∀ a ∈ s.app, Untouched a ∨ Shown s.now a

section

variable {s t : State} {a : App} {e : Event} {now : Millis} {l : Listing} {account : Account}
  {n : Nat}

theorem Listing.isFor_addPage (h : l.isFor account = true) (items : List AccessRequest) :
    (l.addPage items account).isFor account = true := by
  rw [isFor, addPage, List.all_append, Bool.and_eq_true]
  exact ⟨h, List.all_eq_true.mpr fun b hb ↦ decide_eq_true (List.mem_singleton.mp hb)⟩

theorem painted_eq_some :
    a.painted = some l ↔
      (a.view = .activeAccess ∧ a.activeAccess.state = .ready) ∧ a.activeAccess.list = l := by
  rw [App.painted, Option.ite_none_right_eq_some, Option.some.injEq]

theorem Inv.own (h : Inv s) : s.Own := by
  intro a ha l hl
  obtain ⟨⟨hview, hready⟩, rfl⟩ := painted_eq_some.mp hl
  rcases h a ha with hun | hshown
  · rw [hun.activeAccess] at hready
    cases hready
  · refine ⟨fun account haccount ↦ ?_, fun r hr ↦ ?_⟩
    · cases hsigned : a.account with
      | none =>
        rcases (hshown.signedOut hsigned).nothing with hlogin | ⟨hne, -⟩
        · rw [hview] at hlogin
          cases hlogin
        · exact absurd hready hne
      | some user =>
        have hin : a.signedIn = some ⟨a.serverURL, user⟩ := by
          rw [App.signedIn, hsigned]
          rfl
        have hall := List.all_eq_true.mp ((hshown.signedIn _ hin).list hready) account haccount
        rw [hin, of_decide_eq_true hall]
    · have hcurrent := List.all_eq_true.mp (hshown.current _ hl) r hr
      exact (Bool.not_eq_true' _).mp hcurrent

/-! ## Making the screen -/

theorem showActiveAccess_eq {client : String} {cache : Cache} :
    a.showActiveAccess client cache now = { a with
      view := .activeAccess
      activeAccess := { client }
      fetches := a.fetches ++ [{ client }]
      loaded := a.loaded ++ (cache.read now).toList } := by
  unfold App.showActiveAccess
  cases cache.read now with
  | none => simp [App.fetch]
  | some l => rfl

theorem Fetch.isFor_new {client : String} : ({ client } : Fetch).isFor account = true := rfl

theorem shown_showActiveAccess {cache : Cache} (hurl : a.serverURL ≠ "")
    (hclient : a.client = some a.serverURL) (hsigned : a.signedIn = some account)
    (hclients : ∀ f ∈ a.fetches, f.client = a.serverURL)
    (hfetches : ∀ f ∈ a.fetches, f.isFor account = true)
    (hloaded : ∀ l ∈ a.loaded, l.isFor account = true)
    (hcache : cache.isFor now account = true) :
    Shown now (a.showActiveAccess a.serverURL cache now) := by
  rw [showActiveAccess_eq]
  refine {
    serverURL := hurl
    view := View.noConfusion
    client := fun c hc ↦ Option.some.inj (hc.symm.trans hclient)
    noClient := fun hnone ↦ by
      rw [show a.client = none from hnone] at hclient
      cases hclient
    screen := rfl
    clients := fun f hf ↦ ?_
    signedIn := fun account' haccount' ↦
      { list := fun hready ↦ by cases hready
        fetches := fun f hf ↦ ?_
        loaded := fun l hl ↦ ?_ }
    signedOut := fun hnone ↦ ?_
    current := fun l hl ↦ ?_ }
  · rcases List.mem_append.mp hf with hf | hf
    · exact hclients f hf
    · rw [List.mem_singleton.mp hf]
  · obtain rfl : account' = account := Option.some.inj (haccount'.symm.trans hsigned)
    rcases List.mem_append.mp hf with hf | hf
    · exact hfetches f hf
    · rw [List.mem_singleton.mp hf]
      exact Fetch.isFor_new
  · obtain rfl : account' = account := Option.some.inj (haccount'.symm.trans hsigned)
    rcases List.mem_append.mp hl with hl | hl
    · exact hloaded l hl
    · have hread : cache.read now = some l := Option.mem_toList.mp hl
      rw [Cache.isFor, hread] at hcache
      exact hcache
  · rw [App.signedIn, show a.account = none from hnone] at hsigned
    cases hsigned
  · cases (painted_eq_some.mp hl).1.2

theorem newApp_shown {serverURL : String} {user : Option String} {cache : Cache}
    (hcache : serverURL ≠ "" → ∀ u ∈ user, cache.isFor now ⟨serverURL, u⟩ = true) :
    Untouched (newApp serverURL user cache now) ∨ Shown now (newApp serverURL user cache now) := by
  unfold newApp
  split
  · exact .inl ⟨.inl rfl, rfl, rfl, rfl, rfl⟩
  · rename_i hurl
    cases user with
    | none => exact .inl ⟨.inr ⟨rfl, hurl⟩, rfl, rfl, rfl, rfl⟩
    | some user =>
      exact .inr (shown_showActiveAccess hurl rfl rfl (fun f hf ↦ absurd hf List.not_mem_nil)
        (fun f hf ↦ absurd hf List.not_mem_nil) (fun l hl ↦ absurd hl List.not_mem_nil)
        (hcache hurl user rfl))

/-! ## Steps -/

/-- Before the screen is made there is only the login. -/
theorem Untouched.act (h : Untouched a) (happ : s.app = some a) (ho : owned s e = true)
    (hact : act s a e = some t) : Inv t := by
  have hfetch : ∀ {n : Nat}, a.fetches[n]? = none := by
    rw [h.fetches]
    exact List.getElem?_nil
  have hview : a.view ≠ .activeAccess ∧ a.view ≠ .elsewhere := by
    rcases h.view with hview | ⟨hview, -⟩ <;> rw [hview] <;> exact ⟨View.noConfusion, View.noConfusion⟩
  cases e with
  | start => cases hact
  | enterURL serverURL =>
    obtain ⟨⟨-, hurl⟩, hact⟩ := Option.ite_none_right_eq_some.mp hact
    obtain rfl := Option.some.inj hact
    intro a' ha'
    obtain rfl := Option.some.inj ha'
    exact .inl { h with view := .inr ⟨rfl, hurl⟩ }
  | signIn user =>
    obtain ⟨hlogin, hact⟩ := Option.ite_none_right_eq_some.mp hact
    obtain rfl := Option.some.inj hact
    intro a' ha'
    obtain rfl := Option.some.inj ha'
    have hurl : a.serverURL ≠ "" := by
      rcases h.view with hview | ⟨-, hurl⟩
      · rw [hlogin] at hview
        cases hview
      · exact hurl
    rw [owned, happ, Option.all_some, Bool.and_eq_true, Bool.and_eq_true] at ho
    refine .inr (shown_showActiveAccess (a := { a with
      account := some user, client := some a.serverURL }) hurl rfl rfl (fun f hf ↦ ?_)
      (fun f hf ↦ ?_) (fun l hl ↦ ?_) ho.1.1)
    · rw [h.fetches] at hf
      cases hf
    · rw [h.fetches] at hf
      cases hf
    · rw [h.loaded] at hl
      cases hl
  | sessionExpired =>
    obtain ⟨hview, hact⟩ := Option.ite_none_left_eq_some.mp hact
    obtain rfl := Option.some.inj hact
    intro a' ha'
    obtain rfl := Option.some.inj ha'
    exact .inl { h with view := .inr ⟨rfl, (h.view.resolve_left hview).2⟩, client := rfl }
  | ask n =>
    rw [ActiveAccess.act, hfetch] at hact
    cases hact
  | page n items last written =>
    rw [ActiveAccess.act, hfetch] at hact
    cases hact
  | fail n =>
    rw [ActiveAccess.act, hfetch] at hact
    cases hact
  | activeAccessLoaded n =>
    rw [ActiveAccess.act, h.loaded, List.getElem?_nil] at hact
    cases hact
  | refresh loading =>
    rw [ActiveAccess.act, if_neg hview.1] at hact
    cases hact
  | leave =>
    rw [ActiveAccess.act, if_neg hview.1] at hact
    cases hact
  | back =>
    rw [ActiveAccess.act, if_neg hview.2] at hact
    cases hact
  | sshExited =>
    rw [ActiveAccess.act, h.activeAccess, if_pos rfl] at hact
    cases hact
  | quit =>
    obtain rfl := Option.some.inj hact
    intro a' ha'
    cases ha'
  | tick now =>
    obtain ⟨-, hact⟩ := Option.ite_none_right_eq_some.mp hact
    obtain rfl := Option.some.inj hact
    intro a' ha'
    obtain rfl := Option.some.inj (ha'.symm.trans happ)
    exact .inl h

theorem Shown.setUnderWay (h : Shown now a) {fetches : List Fetch} {loaded : List Listing}
    (hclients : ∀ f ∈ fetches, f.client = a.serverURL)
    (hfor : ∀ account, a.signedIn = some account →
      (∀ f ∈ fetches, f.isFor account = true) ∧ ∀ l ∈ loaded, l.isFor account = true)
    (hout : a.account = none → a.view = .login ∨
      a.activeAccess.state ≠ .ready ∧ loaded = [] ∧ ∀ f ∈ fetches, f.asked = none) :
    Shown now { a with fetches, loaded } :=
  { h with
    clients := hclients
    signedIn := fun account haccount ↦
      ⟨(h.signedIn account haccount).list, (hfor account haccount).1, (hfor account haccount).2⟩
    signedOut := fun hnone ↦ ⟨(h.signedOut hnone).client, hout hnone⟩ }

theorem Shown.erase (h : Shown now a) (n : Nat) :
    Shown now { a with fetches := a.fetches.eraseIdx n } := by
  refine h.setUnderWay (fun f hf ↦ h.clients f (List.mem_of_mem_eraseIdx hf))
    (fun account haccount ↦ ⟨fun f hf ↦ (h.signedIn account haccount).fetches f
      (List.mem_of_mem_eraseIdx hf), (h.signedIn account haccount).loaded⟩) fun hnone ↦ ?_
  exact (h.signedOut hnone).nothing.imp_right fun ⟨hstate, hloaded, hasked⟩ ↦
    ⟨hstate, hloaded, fun f hf ↦ hasked f (List.mem_of_mem_eraseIdx hf)⟩

theorem Shown.fetch (h : Shown now a) : Shown now a.fetch := by
  refine h.setUnderWay (fun f hf ↦ ?_) (fun account haccount ↦ ⟨fun f hf ↦ ?_,
    (h.signedIn account haccount).loaded⟩) fun hnone ↦ ?_
  · rcases List.mem_append.mp hf with hf | hf
    · exact h.clients f hf
    · rw [List.mem_singleton.mp hf]
      exact h.screen
  · rcases List.mem_append.mp hf with hf | hf
    · exact (h.signedIn account haccount).fetches f hf
    · rw [List.mem_singleton.mp hf]
      exact Fetch.isFor_new
  · refine (h.signedOut hnone).nothing.imp_right fun ⟨hstate, hloaded, hasked⟩ ↦
      ⟨hstate, hloaded, fun f hf ↦ ?_⟩
    rcases List.mem_append.mp hf with hf | hf
    · exact hasked f hf
    · rw [List.mem_singleton.mp hf]

theorem Shown.setState (h : Shown now a) {state : ActiveAccessState} (hstate : state ≠ .ready) :
    Shown now { a with activeAccess := { a.activeAccess with state } } :=
  { h with
    signedIn := fun account haccount ↦
      { h.signedIn account haccount with list := fun hready ↦ absurd hready hstate }
    signedOut := fun hnone ↦ ⟨(h.signedOut hnone).client,
      (h.signedOut hnone).nothing.imp_right fun hrest ↦ ⟨hstate, hrest.2⟩⟩
    current := fun _ hl ↦ absurd (painted_eq_some.mp hl).1.2 hstate }

theorem Shown.setView (h : Shown now a) {view : View} (hview : view ≠ .serverURL)
    (hlogin : view = .login ∨ a.view ≠ .login)
    (hcurrent : view = .activeAccess → a.activeAccess.state = .ready →
      a.activeAccess.list.current now = true) : Shown now { a with view } :=
  { h with
    view := hview
    signedIn := fun account haccount ↦ { h.signedIn account haccount with }
    signedOut := fun hnone ↦ ⟨(h.signedOut hnone).client, by
      rcases hlogin with hlogin | hne
      · exact .inl hlogin
      · exact .inr ((h.signedOut hnone).nothing.resolve_left hne)⟩
    current := fun l hl ↦ by
      obtain ⟨⟨hview, hready⟩, rfl⟩ := painted_eq_some.mp hl
      exact hcurrent hview hready }

theorem Shown.inv (h : Shown s.now a) : Inv (s.setApp a) := fun a' ha' ↦ by
  obtain rfl := Option.some.inj ha'
  exact .inr h

theorem Shown.answer (h : Shown s.now a) {f : Fetch} (hf : a.fetches[n]? = some f)
    (hasked : f.asked = some account) (items : List AccessRequest) (last : Bool)
    (written : Written) : Inv (s.answer a n f items account last written) := by
  have hmem := List.mem_of_getElem? hf
  -- an account that is signed in is the one that asked
  have hlist : ∀ account', a.signedIn = some account' →
      (f.list.addPage items account).isFor account' = true := by
    intro account' haccount'
    obtain ⟨hlist, hsame⟩ := Bool.and_eq_true_iff.mp ((h.signedIn _ haccount').fetches f hmem)
    rw [hasked] at hsame
    obtain rfl : account = account' := of_decide_eq_true hsame
    exact Listing.isFor_addPage hlist items
  -- nothing was asked for when nobody is signed in, unless the login is shown
  have hout : a.account = none → a.view = .login := fun hnone ↦ by
    refine (h.signedOut hnone).nothing.resolve_right fun hrest ↦ ?_
    rw [hrest.2.2 f hmem] at hasked
    cases hasked
  unfold State.answer
  split
  · have herase := h.erase n
    refine fun a' ha' ↦ .inr ?_
    obtain rfl := Option.some.inj ha'
    refine herase.setUnderWay herase.clients (fun account' haccount' ↦
      ⟨(herase.signedIn account' haccount').fetches, fun l hl ↦ ?_⟩) fun hnone ↦ .inl (hout hnone)
    rcases List.mem_append.mp hl with hl | hl
    · exact (h.signedIn account' haccount').loaded l hl
    · rw [List.mem_singleton.mp hl]
      exact hlist account' haccount'
  · refine (h.setUnderWay (fun g hg ↦ ?_) (fun account' haccount' ↦ ⟨fun g hg ↦ ?_,
      (h.signedIn account' haccount').loaded⟩) fun hnone ↦ .inl (hout hnone)).inv
    · rcases List.mem_or_eq_of_mem_set hg with hg | rfl
      · exact h.clients g hg
      · exact h.clients f hmem
    · rcases List.mem_or_eq_of_mem_set hg with hg | rfl
      · exact (h.signedIn account' haccount').fetches g hg
      · exact Bool.and_eq_true_iff.mpr ⟨hlist account' haccount', rfl⟩

theorem Shown.receive (h : Shown now a) (hl : a.loaded[n]? = some l)
    (hcurrent : a.view = .activeAccess → l.current now = true) :
    Shown now { a with loaded := a.loaded.eraseIdx n } ∧ (a.view = .activeAccess →
      Shown now { a with
        loaded := a.loaded.eraseIdx n
        activeAccess := { a.activeAccess with state := .ready, list := l } }) := by
  have hmem := List.mem_of_getElem? hl
  have herase : Shown now { a with loaded := a.loaded.eraseIdx n } := by
    refine h.setUnderWay h.clients (fun account haccount ↦ ⟨(h.signedIn account haccount).fetches,
      fun l hl ↦ (h.signedIn account haccount).loaded l (List.mem_of_mem_eraseIdx hl)⟩) fun hnone ↦ ?_
    refine (h.signedOut hnone).nothing.imp_right fun ⟨_, hloaded, _⟩ ↦ ?_
    rw [hloaded] at hmem
    cases hmem
  refine ⟨herase, fun hview ↦ { herase with
    signedIn := fun account haccount ↦
      ⟨fun _ ↦ (h.signedIn account haccount).loaded l hmem,
        (herase.signedIn account haccount).fetches, (herase.signedIn account haccount).loaded⟩
    signedOut := fun hnone ↦ ?_
    current := fun l' hl' ↦ ?_ }⟩
  · rcases (h.signedOut hnone).nothing with hlogin | ⟨-, hloaded, -⟩
    · rw [hview] at hlogin
      cases hlogin
    · rw [hloaded] at hmem
      cases hmem
  · obtain ⟨-, rfl⟩ := painted_eq_some.mp hl'
    exact hcurrent hview

theorem Shown.act (h : Shown s.now a) (happ : s.app = some a) (ho : owned s e = true)
    (hact : act s a e = some t) : Inv t := by
  cases e with
  | start => cases hact
  | enterURL serverURL =>
    obtain ⟨⟨hview, -⟩, -⟩ := Option.ite_none_right_eq_some.mp hact
    exact absurd hview h.view
  | signIn user =>
    obtain ⟨-, hact⟩ := Option.ite_none_right_eq_some.mp hact
    obtain rfl := Option.some.inj hact
    rw [owned, happ, Option.all_some, Bool.and_eq_true, Bool.and_eq_true] at ho
    obtain ⟨⟨hcache, hloaded⟩, hfetches⟩ := ho
    exact (shown_showActiveAccess (a := { a with
      account := some user, client := some a.serverURL }) h.serverURL rfl rfl h.clients
      (List.all_eq_true.mp hfetches) (List.all_eq_true.mp hloaded) hcache).inv
  | sessionExpired =>
    obtain ⟨-, hact⟩ := Option.ite_none_left_eq_some.mp hact
    obtain rfl := Option.some.inj hact
    refine Shown.inv { h with
      view := View.noConfusion
      client := fun c hc ↦ by cases hc
      noClient := fun _ ↦ rfl
      signedIn := fun account haccount ↦ by cases haccount
      signedOut := fun _ ↦ ⟨rfl, .inl rfl⟩
      current := fun l hl ↦ by cases (painted_eq_some.mp hl).1.1 }
  | ask n =>
    obtain ⟨f, hf, hact⟩ := Option.bind_eq_some_iff.mp hact
    obtain ⟨-, hact⟩ := Option.ite_none_right_eq_some.mp hact
    obtain ⟨user, huser, rfl⟩ := Option.map_eq_some_iff.mp hact
    have hmem := List.mem_of_getElem? hf
    refine (h.setUnderWay (fun g hg ↦ ?_) (fun account haccount ↦ ⟨fun g hg ↦ ?_,
      (h.signedIn account haccount).loaded⟩) fun hnone ↦ ?_).inv
    · rcases List.mem_or_eq_of_mem_set hg with hg | rfl
      · exact h.clients g hg
      · exact h.clients f hmem
    · rcases List.mem_or_eq_of_mem_set hg with hg | rfl
      · exact (h.signedIn account haccount).fetches g hg
      · have hlist := (Bool.and_eq_true_iff.mp ((h.signedIn account haccount).fetches f hmem)).1
        rw [App.signedIn, huser] at haccount
        obtain rfl := Option.some.inj haccount
        refine Bool.and_eq_true_iff.mpr ⟨hlist, decide_eq_true ?_⟩
        rw [h.clients f hmem]
    · rw [huser] at hnone
      cases hnone
  | page n items last written =>
    obtain ⟨f, hf, hact⟩ := Option.bind_eq_some_iff.mp hact
    obtain ⟨account, hasked, rfl⟩ := Option.map_eq_some_iff.mp hact
    exact h.answer hf hasked items last written
  | fail n =>
    obtain ⟨f, hf, rfl⟩ := Option.map_eq_some_iff.mp hact
    dsimp only
    split
    · exact ((h.erase n).setState ActiveAccessState.noConfusion).inv
    · exact (h.erase n).inv
  | activeAccessLoaded n =>
    obtain ⟨l, hl, rfl⟩ := Option.map_eq_some_iff.mp hact
    rw [owned, happ, Option.all_some, hl, Option.all_some, Bool.or_eq_true, decide_eq_true_iff]
      at ho
    obtain ⟨herase, hready⟩ := h.receive hl fun hview ↦ ho.resolve_left (absurd hview)
    dsimp only
    split
    · exact (hready ‹_›).inv
    · exact herase.inv
  | refresh loading =>
    obtain ⟨-, hact⟩ := Option.ite_none_right_eq_some.mp hact
    split at hact
    · obtain rfl := Option.some.inj hact
      exact (h.setState ActiveAccessState.noConfusion).fetch.inv
    · obtain rfl := Option.some.inj hact
      exact h.fetch.inv
  | leave =>
    obtain ⟨hview, hact⟩ := Option.ite_none_right_eq_some.mp hact
    obtain rfl := Option.some.inj hact
    refine (h.setView View.noConfusion (.inr ?_) fun hother ↦ by cases hother).inv
    rw [hview]
    exact View.noConfusion
  | back =>
    obtain ⟨hview, hact⟩ := Option.ite_none_right_eq_some.mp hact
    obtain rfl := Option.some.inj hact
    rw [owned, happ, Option.all_some, Bool.or_eq_true, decide_eq_true_iff] at ho
    refine (h.setView View.noConfusion (.inr ?_) fun _ hready ↦ ho.resolve_left (absurd hready)).inv
    rw [hview]
    exact View.noConfusion
  | sshExited =>
    obtain ⟨-, hact⟩ := Option.ite_none_left_eq_some.mp hact
    rw [owned, happ, Option.all_some] at ho
    cases haccount : a.account with
    | some user =>
      rw [haccount] at ho
      have hsigned : a.signedIn = some ⟨a.serverURL, user⟩ := by
        rw [App.signedIn, haccount]
        rfl
      cases hclient : a.client with
      | none =>
        rw [h.noClient hclient] at haccount
        cases haccount
      | some client =>
        rw [hclient] at hact
        obtain rfl := Option.some.inj hact
        obtain rfl := h.client client hclient
        exact (shown_showActiveAccess h.serverURL hclient hsigned h.clients
          (h.signedIn _ hsigned).fetches (h.signedIn _ hsigned).loaded ho).inv
    | none =>
      rw [haccount] at ho
      rw [(h.signedOut haccount).client] at hact
      obtain rfl := Option.some.inj hact
      simp only [Bool.and_eq_true, decide_eq_true_iff, List.isEmpty_iff, List.all_eq_true,
        Option.isNone_iff_eq_none] at ho
      obtain ⟨⟨hstate, hloaded⟩, hasked⟩ := ho
      refine Shown.inv { h with
        view := View.noConfusion
        client := fun c hc ↦ by cases hc
        noClient := fun _ ↦ haccount
        signedIn := fun account hsigned ↦ ?_
        signedOut := fun _ ↦ ⟨rfl, .inr ⟨hstate, hloaded, hasked⟩⟩
        current := fun _ hl ↦ absurd (painted_eq_some.mp hl).1.2 hstate }
      have hnone : a.signedIn = none := congrArg (Option.map _) haccount
      cases hnone.symm.trans hsigned
  | quit =>
    obtain rfl := Option.some.inj hact
    intro a' ha'
    cases ha'
  | tick now =>
    obtain ⟨-, hact⟩ := Option.ite_none_right_eq_some.mp hact
    obtain rfl := Option.some.inj hact
    rw [owned, happ, Option.all_some] at ho
    intro a' ha'
    obtain rfl := Option.some.inj (ha'.symm.trans happ)
    refine .inr { h with current := fun l hl ↦ ?_ }
    rw [Option.mem_def.mp hl] at ho
    exact ho

theorem Inv.step (h : Inv s) (ho : Owned s e t) (hstep : step s e = some t) : Inv t := by
  unfold ActiveAccess.step at hstep
  cases happ : s.app with
  | none =>
    rw [happ] at hstep
    cases e with
    | start serverURL account =>
      obtain rfl := Option.some.inj hstep
      intro a ha
      obtain rfl := Option.some.inj ha
      refine newApp_shown fun hurl user huser ↦ ?_
      rw [Owned, owned, Bool.or_eq_true, decide_eq_true_iff] at ho
      have hcache := ho.resolve_left hurl
      rw [Option.mem_def.mp huser] at hcache
      exact hcache
    | tick now =>
      obtain ⟨-, hstep⟩ := Option.ite_none_right_eq_some.mp hstep
      obtain rfl := Option.some.inj hstep
      intro a ha
      cases ha
    | _ => cases hstep
  | some a =>
    rw [happ] at hstep
    have hact : ActiveAccess.act s a e = some t := by
      cases e <;> exact hstep
    rcases h a happ with hun | hshown
    · exact hun.act happ ho hact
    · exact hshown.act happ ho hact

end

/-! ## The claim -/

end Shellius.Cli.ActiveAccess
