import Shellius.Cli.Invocations

/-!
# Tokens stay with their server

Nothing says which server a token in the file `credentials` came from: it is paired with whatever
URL the next invocation ends up with.  A URL on the command line, another config file in the same
directory, a URL at the prompt, or a login that saved its URL and not its credentials pairs it with
another server, and the next call sends it there.  `directed` is the condition that an invocation
with a stored session ends up with the URL that was saved together with it; then the pairing is an
invariant over all invocations.
-/

namespace Shellius.Cli.Invocations

open Lib

/-! ## The condition -/

section

variable (dir : String → String)

/-- The URL in the config file that was saved together with the credentials beside a config
file. -/
def Files.home (files : Files) (configPath : String) : Option String :=
  (files.savedBy (dir configPath)).map files.serverURL

/-- An invocation that finds a session, and does not end it, ends up with the URL that was saved
with it, whether by its command line or by what is entered at the prompt; a login with another URL
saves both files or none. -/
def directed (s : State) : Event → Bool
  | .start a saved _ =>
    let cfg := load dir s.files a.config
    cfg.creds.refreshToken.isNone ||
      match a.subcmd with
      | .doctor => true
      | .login url =>
        saved ≠ .prefs || loginURL cfg url = "" ||
          s.files.home dir a.config = some (loginURL cfg url)
      | .none =>
        a.logout || a.serverURL cfg = "" || s.files.home dir a.config = some (a.serverURL cfg)
  | .enterURL val _ _ =>
    s.process.all fun p ↦
      p.cfg.creds.refreshToken.isNone || trimSpace val = "" ||
        s.files.home dir p.cfg.configPath = some (trimSpace val)
  | _ => true

end

def Directed (dir : String → String) (s : State) (e : Event) (_ : State) : Prop :=
  directed dir s e = true

/-! ## The invariant -/

/-- The tokens of a session are from one server. -/
def Credentials.From (c : Credentials) (url : String) : Prop :=
  ∀ t ∈ c.refreshToken, t.issuer = url ∧ ∀ a ∈ c.accessToken, a.issuer = url

/-- A stored session is from the server whose URL was saved with it. -/
def Files.Paired (dir : String → String) (files : Files) : Prop :=
  ∀ d, ∀ t ∈ (files.credentials d).refreshToken, (files.credentials d).From t.issuer ∧
    ∃ configPath ∈ files.savedBy d, dir configPath = d ∧ files.serverURL configPath = t.issuer

/-- What holds of an invocation past the prompt: everything is with the server of its URL. -/
structure Settled (dir : String → String) (files : Files) (p : Process) : Prop where
  memory : p.cfg.creds.From p.cfg.serverURL
  stored : ∀ t ∈ (files.credentials (dir p.cfg.configPath)).refreshToken, t.issuer = p.cfg.serverURL
  clients : ∀ url ∈ p.clients, url = p.cfg.serverURL
  /-- The access token was from the server when a call was let through, and stays so. -/
  calls : ∀ url ∈ p.calls,
    url = p.cfg.serverURL ∧ ∀ a ∈ p.cfg.creds.accessToken, a.issuer = p.cfg.serverURL
  refreshing : ∀ r ∈ p.refreshing, r.asked = p.cfg.serverURL ∧ r.baseURL = p.cfg.serverURL
  polls : ∀ url ∈ p.polls, url = p.cfg.serverURL

def Fits (dir : String → String) (files : Files) (p : Process) : Prop :=
  p = { cfg := load dir files p.cfg.configPath, view := .serverURL } ∨
    p.view ≠ .serverURL ∧ Settled dir files p

structure Inv (dir : String → String) (s : State) : Prop where
  files : s.files.Paired dir
  process : ∀ p ∈ s.process, Fits dir s.files p
  home : s.Home

section

variable {dir : String → String} {files : Files} {c : Config} {p p' : Process} {s t : State}
  {url : String} {e : Event}

/-! ## Files -/

theorem Credentials.From.of_none {c : Credentials} (h : c.refreshToken = none) : c.From url :=
  fun t ht ↦ by rw [h] at ht; cases ht

theorem Files.Paired.home (h : files.Paired dir) {configPath : String} {t : Token}
    (ht : t ∈ (files.credentials (dir configPath)).refreshToken) :
    files.home dir configPath = some t.issuer ∧
      (files.credentials (dir configPath)).From t.issuer := by
  obtain ⟨hfrom, saver, hsaver, -, hurl⟩ := h _ t ht
  refine ⟨?_, hfrom⟩
  rw [Files.home, Option.mem_def.mp hsaver]
  exact congrArg some hurl

theorem Files.Paired.from (h : files.Paired dir) {configPath : String}
    (hhome : (files.credentials (dir configPath)).refreshToken = none ∨
      files.home dir configPath = some url) :
    (files.credentials (dir configPath)).From url := by
  rcases hhome with hnone | hhome
  · exact .of_none hnone
  · intro t ht
    obtain ⟨hissuer, hfrom⟩ := h.home ht
    obtain rfl := Option.some.inj (hissuer.symm.trans hhome)
    exact hfrom t ht

theorem Files.Paired.writePrefs (h : files.Paired dir)
    (hstored : ∀ t ∈ (files.credentials (dir c.configPath)).refreshToken, t.issuer = c.serverURL) :
    (writePrefs files c).Paired dir := by
  intro d t ht
  obtain ⟨hfrom, saver, hsaver, rfl, hurl⟩ := h d t ht
  refine ⟨hfrom, saver, hsaver, rfl, ?_⟩
  show Function.update files.serverURL c.configPath c.serverURL saver = t.issuer
  by_cases hself : saver = c.configPath
  · subst hself
    rw [Function.update_self]
    exact (hstored t ht).symm
  · rw [Function.update_of_ne hself]
    exact hurl

theorem credentials_update {creds : Credentials} {d d' : String} {t : Token}
    (ht : t ∈ (Function.update files.credentials d creds d').refreshToken) :
    d' = d ∧ t ∈ creds.refreshToken ∨ d' ≠ d ∧ t ∈ (files.credentials d').refreshToken := by
  by_cases hd : d' = d
  · subst hd
    rw [Function.update_self] at ht
    exact .inl ⟨rfl, ht⟩
  · rw [Function.update_of_ne hd] at ht
    exact .inr ⟨hd, ht⟩

theorem Files.Paired.saveAll (h : files.Paired dir) (hmemory : c.creds.From c.serverURL) :
    (save dir files c .all).Paired dir := by
  intro d t ht
  show (Function.update files.credentials _ c.creds d).From t.issuer ∧
    ∃ configPath ∈ Function.update files.savedBy _ (some c.configPath) d, dir configPath = d ∧
      Function.update files.serverURL c.configPath c.serverURL configPath = t.issuer
  rcases credentials_update ht with ⟨rfl, hsession⟩ | ⟨hd, ht⟩
  · rw [Function.update_self, Function.update_self, (hmemory t hsession).1]
    exact ⟨hmemory, c.configPath, rfl, rfl, Function.update_self ..⟩
  · rw [Function.update_of_ne hd, Function.update_of_ne hd]
    obtain ⟨hfrom, saver, hsaver, rfl, hurl⟩ := h d t ht
    refine ⟨hfrom, saver, hsaver, rfl, ?_⟩
    rw [Function.update_of_ne fun heq ↦ hd (congrArg dir heq)]
    exact hurl

theorem Files.Paired.save (h : files.Paired dir) (hmemory : c.creds.From c.serverURL)
    (hstored : ∀ t ∈ (files.credentials (dir c.configPath)).refreshToken, t.issuer = c.serverURL)
    (saved : Saved) :
    (Invocations.save dir files c saved).Paired dir ∧
      ∀ t ∈ ((Invocations.save dir files c saved).credentials (dir c.configPath)).refreshToken,
        t.issuer = c.serverURL := by
  cases saved with
  | all =>
    refine ⟨h.saveAll hmemory, fun t ht ↦ ?_⟩
    have hwritten : ((Invocations.save dir files c .all).credentials (dir c.configPath)) = c.creds :=
      Function.update_self ..
    rw [hwritten] at ht
    exact (hmemory t ht).1
  | prefs => exact ⟨h.writePrefs hstored, hstored⟩
  | nothing => exact ⟨h, hstored⟩

theorem Files.Paired.clear (h : files.Paired dir) : (clear dir files c).Paired dir := by
  intro d t ht
  show (Function.update files.credentials _ {} d).From t.issuer ∧ _
  rcases credentials_update ht with ⟨-, ht⟩ | ⟨hd, ht⟩
  · cases ht
  · rw [Function.update_of_ne hd]
    exact h d t ht

/-! ## Invocations -/

theorem Settled.save (h : Settled dir files p) (hfiles : files.Paired dir) (saved : Saved) :
    Settled dir (Invocations.save dir files p.cfg saved) p :=
  { h with stored := (hfiles.save h.memory h.stored saved).2 }

theorem Settled.setCreds (h : Settled dir files p) {creds : Credentials}
    (hrefresh : ∀ t ∈ creds.refreshToken, t.issuer = p.cfg.serverURL)
    (haccess : ∀ a ∈ creds.accessToken, a.issuer = p.cfg.serverURL) :
    Settled dir files (p.setCreds creds) :=
  { h with
    memory := fun t ht ↦ ⟨hrefresh t ht, haccess⟩
    calls := fun url hurl ↦ ⟨(h.calls url hurl).1, haccess⟩ }

theorem Settled.newClient (h : Settled dir files p) : Settled dir files p.newClient :=
  { h with
    clients := fun url hurl ↦ by
      rcases List.mem_append.mp hurl with hurl | hurl
      · exact h.clients url hurl
      · exact List.mem_singleton.mp hurl }

theorem Settled.wipe (h : Settled dir files p) : Settled dir files (p.setCreds {}) :=
  h.setCreds (fun t ht ↦ by cases ht) fun a ha ↦ by cases ha

theorem Settled.addCall (h : Settled dir files p) (hurl : url = p.cfg.serverURL)
    (haccess : ∀ a ∈ p.cfg.creds.accessToken, a.issuer = p.cfg.serverURL) :
    Settled dir files { p with calls := p.calls ++ [url] } :=
  { h with
    calls := fun url' hurl' ↦ by
      rcases List.mem_append.mp hurl' with hurl' | hurl'
      · exact h.calls url' hurl'
      · exact ⟨(List.mem_singleton.mp hurl').trans hurl, haccess⟩ }

theorem Settled.poll (h : Settled dir files p) :
    Settled dir files { p with polls := p.polls ++ [p.cfg.serverURL] } :=
  { h with
    polls := fun url hurl ↦ by
      rcases List.mem_append.mp hurl with hurl | hurl
      · exact h.polls url hurl
      · exact List.mem_singleton.mp hurl }

theorem Settled.refresh (h : Settled dir files p) :
    Settled dir files { p with refreshing := some ⟨p.cfg.serverURL, p.cfg.serverURL⟩ } :=
  { h with
    refreshing := fun r hr ↦ by
      obtain rfl := Option.some.inj hr
      exact ⟨rfl, rfl⟩ }

theorem Settled.setView (h : Settled dir files p) (view : View) :
    Settled dir files { p with view } := { h with }

theorem newApp_fits (hprompt : c.serverURL = "" → c = load dir files c.configPath)
    (hmemory : c.serverURL ≠ "" → c.creds.From c.serverURL)
    (hstored : c.serverURL ≠ "" →
      ∀ t ∈ (files.credentials (dir c.configPath)).refreshToken, t.issuer = c.serverURL) :
    Fits dir files (newApp c) := by
  have hsettled : ∀ (view : View) (hasClient : Bool) (clients : List String),
      c.serverURL ≠ "" → (∀ url ∈ clients, url = c.serverURL) →
        Settled dir files { cfg := c, view, hasClient, clients } := by
    intro view hasClient clients hurl hclients
    exact {
      memory := hmemory hurl
      stored := hstored hurl
      clients := hclients
      calls := fun url h ↦ absurd h List.not_mem_nil
      refreshing := fun r h ↦ by cases h
      polls := fun url h ↦ absurd h List.not_mem_nil }
  unfold newApp
  split
  · rename_i hurl
    exact .inl (congrArg (fun cfg ↦ ({ cfg, view := .serverURL } : Process)) (hprompt hurl))
  · rename_i hurl
    split
    · exact .inr ⟨View.noConfusion, hsettled _ _ _ hurl fun url h ↦ absurd h List.not_mem_nil⟩
    · exact .inr ⟨View.noConfusion, hsettled _ _ _ hurl fun url h ↦ List.mem_singleton.mp h⟩

theorem run_keeps {a : Args} (hfiles : files.Paired dir)
    (hprompt : a.serverURL c = "" → c = load dir files c.configPath)
    (hmemory : a.logout = false → a.serverURL c ≠ "" → c.creds.From (a.serverURL c))
    (hstored : a.logout = false → a.serverURL c ≠ "" →
      ∀ t ∈ (files.credentials (dir c.configPath)).refreshToken, t.issuer = a.serverURL c)
    (removed : Bool) :
    (run dir files a c removed).1.Paired dir ∧
      ∀ p ∈ (run dir files a c removed).2, Fits dir (run dir files a c removed).1 p := by
  unfold run
  cases hlogout : a.logout with
  | true =>
    refine ⟨?_, fun p hp ↦ by cases hp⟩
    cases removed with
    | true => exact hfiles.clear
    | false => exact hfiles
  | false =>
    refine ⟨hfiles, fun p hp ↦ ?_⟩
    obtain rfl := Option.some.inj hp
    refine newApp_fits (fun hurl ↦ ?_) (hmemory hlogout) (hstored hlogout)
    have hown : c.serverURL = a.serverURL c := by
      unfold Args.serverURL at hurl ⊢
      split at hurl
      · rename_i hserver
        rw [if_pos hserver]
      · exact absurd hurl ‹_›
    rw [← hown]
    exact hprompt hurl

/-- An invocation that starts as it should has the files as they should be, and fits them. -/
theorem main_keeps {a : Args} {saved : Saved} {removed : Bool} (hfiles : s.files.Paired dir)
    (hd : directed dir s (.start a saved removed) = true) :
    (main dir s.files a saved removed).1.Paired dir ∧
      ∀ p ∈ (main dir s.files a saved removed).2,
        Fits dir (main dir s.files a saved removed).1 p := by
  have hnone : ∀ {files : Files}, ∀ p ∈ (none : Option Process), Fits dir files p :=
    fun p hp ↦ by cases hp
  rw [directed, Bool.or_eq_true, Option.isNone_iff_eq_none] at hd
  unfold main
  cases hsubcmd : a.subcmd with
  | doctor => exact ⟨hfiles, hnone⟩
  | login url =>
    rw [hsubcmd] at hd
    dsimp only at hd ⊢
    split
    · exact ⟨hfiles, hnone⟩
    · rename_i hurl
      cases saved with
      | all =>
        -- no session is left, neither in memory nor in the file
        refine run_keeps (hfiles.saveAll (.of_none rfl)) (fun hprompt ↦ ?_)
          (fun _ _ ↦ .of_none rfl) (fun _ _ t ht ↦ ?_) removed
        · unfold Args.serverURL at hprompt
          split at hprompt
          · exact absurd hprompt hurl
          · exact absurd hprompt ‹_›
        · change t ∈ (Function.update s.files.credentials (dir a.config) {}
            (dir a.config)).refreshToken at ht
          rw [Function.update_self] at ht
          cases ht
      | prefs =>
        refine ⟨hfiles.writePrefs fun t ht ↦ ?_, hnone⟩
        have hhome : (s.files.credentials (dir a.config)).refreshToken = none ∨
            s.files.home dir a.config = some (loginURL (load dir s.files a.config) url) := by
          refine hd.imp_right fun hd ↦ ?_
          simpa [hurl] using hd
        exact (hfiles.from hhome t ht).1
      | nothing => exact ⟨hfiles, hnone⟩
  | none =>
    rw [hsubcmd] at hd
    dsimp only at hd ⊢
    have hfrom : a.logout = false → a.serverURL (load dir s.files a.config) ≠ "" →
        (s.files.credentials (dir a.config)).From
          (a.serverURL (load dir s.files a.config)) := by
      intro hlogout hurl
      refine hfiles.from (hd.imp_right fun hd ↦ ?_)
      simpa [hlogout, hurl] using hd
    exact run_keeps hfiles (fun _ ↦ rfl) hfrom (fun hlogout hurl t ht ↦ (hfrom hlogout hurl t ht).1)
      removed

/-! ## Steps -/

theorem Inv.setProcess (h : Inv dir s) (hp : Settled dir s.files p)
    (hview : p.view ≠ .serverURL) : Inv dir (s.setProcess p) :=
  { h with
    process := fun q hq ↦ by
      obtain rfl := Option.some.inj hq
      exact .inr ⟨hview, hp⟩ }

theorem Inv.setAndSave (h : Inv dir s) (hp : Settled dir s.files p)
    (hview : p.view ≠ .serverURL) (saved : Saved) : Inv dir (s.setAndSave dir p saved) where
  files := (h.files.save hp.memory hp.stored saved).1
  process := fun q hq ↦ by
    obtain rfl := Option.some.inj hq
    exact .inr ⟨hview, hp.save h.files saved⟩
  home := h.home

theorem Inv.present (h : Inv dir s) {token : Token} (htoken : token.issuer = url) :
    Inv dir (s.present url token) :=
  { h with
    home := fun r hr ↦ by
      rcases List.mem_append.mp hr with hr | hr
      · exact h.home r hr
      · obtain rfl := List.mem_singleton.mp hr
        exact htoken }

theorem Token.issuer_of? {issuer value : String} {t : Token} (h : t ∈ Token.of? issuer value) :
    t.issuer = issuer := by
  unfold Token.of? at h
  split at h
  · cases h
  · obtain rfl := Option.some.inj h
    rfl

theorem Inv.quit (h : Inv dir s) : Inv dir { s with process := none } :=
  { h with
    process := fun q hq ↦ by cases hq }

theorem Inv.act_prompt (h : Inv dir s)
    (hp : p = { cfg := load dir s.files p.cfg.configPath, view := .serverURL })
    (hprocess : s.process = some p) (hd : directed dir s e = true)
    (hact : act dir s p e = some t) : Inv dir t := by
  generalize p.cfg.configPath = path at hp
  subst hp
  cases e with
  | enterURL val saved saved' =>
    rw [act, if_pos rfl] at hact
    split at hact
    · obtain rfl := Option.some.inj hact
      exact h
    · rename_i hval
      obtain rfl := Option.some.inj hact
      have hfrom : (s.files.credentials (dir path)).From (trimSpace val) := by
        rw [directed, hprocess, Option.all_some, Bool.or_eq_true, Bool.or_eq_true,
          Option.isNone_iff_eq_none, decide_eq_true_iff, decide_eq_true_iff] at hd
        obtain (hnone | hempty) | hhome := hd
        · exact h.files.from (.inl hnone)
        · exact absurd hempty hval
        · exact h.files.from (.inr hhome)
      have hsettled : Settled dir s.files
          { cfg := { load dir s.files path with serverURL := trimSpace val }, view := .login } :=
        { memory := hfrom
          stored := fun t ht ↦ (hfrom t ht).1
          clients := fun url h ↦ absurd h List.not_mem_nil
          calls := fun url h ↦ absurd h List.not_mem_nil
          refreshing := fun r h ↦ by cases h
          polls := fun url h ↦ absurd h List.not_mem_nil }
      exact (h.setAndSave hsettled View.noConfusion saved).setAndSave
        (hsettled.save h.files saved) View.noConfusion saved'
  | quit =>
    obtain rfl := Option.some.inj hact
    exact h.quit
  | start | poll | deviceAuthToken | openHostList | sshExited | refreshIfNeeded | receive | send
  | refreshPermissions | sessionExpired | logout => simp [act] at hact

/-- An invocation past the prompt keeps everything with its server. -/
theorem Inv.act_settled (h : Inv dir s) (hview : p.view ≠ .serverURL)
    (hp : Settled dir s.files p) (hact : act dir s p e = some t) : Inv dir t := by
  cases e with
  | start => cases hact
  | enterURL val saved saved' =>
    rw [act, if_neg hview] at hact
    cases hact
  | poll =>
    rw [act] at hact
    obtain ⟨-, hact⟩ := Option.ite_none_right_eq_some.mp hact
    obtain rfl := Option.some.inj hact
    exact h.setProcess hp.poll hview
  | deviceAuthToken n accessToken refreshToken expiresIn now saved =>
    rw [act] at hact
    obtain ⟨-, hact⟩ := Option.ite_none_right_eq_some.mp hact
    obtain ⟨url, hpoll, rfl⟩ := Option.map_eq_some_iff.mp hact
    obtain rfl := hp.polls url (List.mem_of_getElem? hpoll)
    -- the tokens are from the server that was polled
    have hnew : Settled dir s.files (p.setCreds ⟨Token.of? p.cfg.serverURL accessToken,
        Token.of? p.cfg.serverURL refreshToken, now + expiresIn * 1000⟩) :=
      hp.setCreds (fun t ↦ Token.issuer_of?) fun t ↦ Token.issuer_of?
    dsimp only
    split
    · exact h.setAndSave (hnew.newClient.setView .home) View.noConfusion saved
    · exact h.setAndSave hnew hview saved
  | openHostList =>
    rw [act] at hact
    obtain ⟨-, hact⟩ := Option.ite_none_right_eq_some.mp hact
    obtain rfl := Option.some.inj hact
    split
    · exact h
    · exact h.setProcess hp.newClient hview
  | sshExited =>
    rw [act] at hact
    obtain ⟨-, hact⟩ := Option.ite_none_left_eq_some.mp hact
    obtain rfl := Option.some.inj hact
    exact h.setProcess (hp.setView .home) View.noConfusion
  | refreshIfNeeded client now =>
    rw [act] at hact
    obtain ⟨hidle, hact⟩ := Option.ite_none_right_eq_some.mp hact
    obtain ⟨baseURL, hclient, rfl⟩ := Option.map_eq_some_iff.mp hact
    obtain rfl := hp.clients baseURL (List.mem_of_getElem? hclient)
    split
    · exact h
    · rename_i token htoken
      obtain ⟨hissuer, haccess⟩ := hp.memory token htoken
      split
      · exact (h.setProcess hp.refresh hview).present hissuer
      · exact h.setProcess (hp.addCall rfl haccess) hview
  | receive answer now saved =>
    rw [act] at hact
    obtain ⟨r, hr, rfl⟩ := Option.map_eq_some_iff.mp hact
    obtain ⟨hasked, hbase⟩ := hp.refreshing r hr
    have hidle : Settled dir s.files { p with refreshing := none } :=
      { hp with refreshing := fun r hr ↦ by cases hr }
    cases answer with
    | tokens accessToken refreshToken expiresIn =>
      have haccess : ∀ a ∈ Token.of? r.asked accessToken, a.issuer = p.cfg.serverURL :=
        fun a ha ↦ (Token.issuer_of? ha).trans hasked
      have hnew : Settled dir s.files (({ p with refreshing := none } : Process).setCreds
          (p.cfg.creds.refreshed r.asked accessToken refreshToken expiresIn now)) := by
        refine hidle.setCreds (fun t ht ↦ ?_) haccess
        rcases Option.or_eq_some_iff.mp ht with ht | ⟨-, ht⟩
        · exact (Token.issuer_of? ht).trans hasked
        · exact (hp.memory t ht).1
      dsimp only
      split
      · exact h.setAndSave (hnew.addCall hbase haccess) hview saved
      · exact h.setAndSave hnew hview saved
    | unauthorized => exact h.setProcess { hidle with } hview
    | failed => exact h.setProcess hidle hview
  | send n =>
    rw [act] at hact
    obtain ⟨baseURL, hcall, rfl⟩ := Option.map_eq_some_iff.mp hact
    obtain ⟨hbase, haccess⟩ := hp.calls baseURL (List.mem_of_getElem? hcall)
    have hsent : Inv dir (s.setProcess { p with calls := p.calls.eraseIdx n }) :=
      h.setProcess
        { hp with calls := fun url hurl ↦ hp.calls url (List.mem_of_mem_eraseIdx hurl) } hview
    dsimp only
    split
    · rename_i token htoken
      exact hsent.present ((haccess token htoken).trans hbase.symm)
    · exact hsent
  | refreshPermissions saved =>
    rw [act] at hact
    obtain ⟨-, hact⟩ := Option.ite_none_left_eq_some.mp hact
    obtain rfl := Option.some.inj hact
    exact h.setAndSave hp hview saved
  | sessionExpired saved =>
    rw [act] at hact
    obtain ⟨-, hact⟩ := Option.ite_none_right_eq_some.mp hact
    obtain rfl := Option.some.inj hact
    have hnew : Settled dir s.files
        { p.setCreds {} with view := .login, hasClient := false } := { hp.wipe with }
    exact h.setAndSave hnew View.noConfusion saved
  | logout removed =>
    rw [act] at hact
    obtain ⟨-, hact⟩ := Option.ite_none_right_eq_some.mp hact
    split at hact
    · obtain rfl := Option.some.inj hact
      refine ⟨h.files.clear, fun q hq ↦ ?_, h.home⟩
      obtain rfl := Option.some.inj hq
      refine .inr ⟨hview, { hp.wipe with stored := fun t ht ↦ ?_ }⟩
      change t ∈ (Function.update s.files.credentials (dir p.cfg.configPath) {}
        (dir p.cfg.configPath)).refreshToken at ht
      rw [Function.update_self] at ht
      cases ht
    · obtain rfl := Option.some.inj hact
      exact h
  | quit =>
    obtain rfl := Option.some.inj hact
    exact h.quit

theorem Inv.step (h : Inv dir s) (hd : Directed dir s e t) (hstep : step dir s e = some t) :
    Inv dir t := by
  unfold Invocations.step at hstep
  cases hprocess : s.process with
  | none =>
    rw [hprocess] at hstep
    cases e with
    | start a saved removed =>
      obtain rfl := Option.some.inj hstep
      obtain ⟨hfiles, hfits⟩ := main_keeps h.files hd
      exact ⟨hfiles, hfits, h.home⟩
    | _ => cases hstep
  | some p =>
    rw [hprocess] at hstep
    have hact : act dir s p e = some t := by
      cases e <;> exact hstep
    rcases h.process p hprocess with hp | ⟨hview, hp⟩
    · exact h.act_prompt hp hprocess hd hact
    · exact h.act_settled hview hp hact

theorem Inv.start (serverURL : String → String) : Inv dir { files := { serverURL } } where
  files := fun d t ht ↦ by cases ht
  process := fun p hp ↦ by cases hp
  home := fun r hr ↦ absurd hr List.not_mem_nil

end

/-! ## All invocations -/

/-- **Tokens go to the server that gave them,** over all invocations, as long as one that finds a
session ends up with the URL that was saved with it. -/
theorem tokens_stay_home {dir : String → String} {serverURL : String → String} {es : List Event}
    {t : State}
    (hrun : Run (step dir) (Directed dir) { files := { serverURL } } es t) : t.Home :=
  (hrun.invariant (Inv.start serverURL) fun _ _ _ hs hstep hd ↦ hs.step hd hstep).home

def atHome : List Event :=
  [.start { config := "config.yaml", subcmd := .login (some "https://a/") } .all true, .poll,
    .deviceAuthToken 0 "access" "refresh" 900 0 .all, .refreshIfNeeded 0 0, .send 0,
    .refreshIfNeeded 0 900000, .receive (.tokens "next" "" 900) 900000 .all, .send 0, .quit,
    .start { config := "config.yaml", server := "https://a" } .all true,
    .refreshIfNeeded 0 900000, .send 0]

theorem tokens_stay_home_in_use :
    ∃ t, Run (step fun _ ↦ "") (Directed fun _ ↦ "") {} atHome t ∧ t.Home ∧
      t.sent = [⟨"https://a", "access", "https://a"⟩, ⟨"https://a", "refresh", "https://a"⟩,
        ⟨"https://a", "next", "https://a"⟩, ⟨"https://a", "next", "https://a"⟩] := by
  have hview : (execIf (step fun _ ↦ "") (directed fun _ ↦ "") {} atHome).map State.sent =
      some [⟨"https://a", "access", "https://a"⟩, ⟨"https://a", "refresh", "https://a"⟩,
        ⟨"https://a", "next", "https://a"⟩, ⟨"https://a", "next", "https://a"⟩] := by
    decide +kernel
  obtain ⟨t, hrun, hsent⟩ := exists_run hview
  exact ⟨t, hrun, tokens_stay_home hrun, hsent⟩

def elsewhere : List Event :=
  [.start { config := "config.yaml", subcmd := .login (some "https://a") } .all true, .poll,
    .deviceAuthToken 0 "access" "refresh" 900 0 .all, .quit,
    .start { config := "config.yaml", server := "https://b" } .all true, .refreshIfNeeded 0 900000]

/-- The flag `-server` sends the refresh token of one server to another. -/
theorem a_token_leaves_home :
    ∃ t, Run (step fun _ ↦ "") free {} elsewhere t ∧ ¬ t.Home := by
  have hview : (exec (step fun _ ↦ "") {} elsewhere).map State.sent =
      some [⟨"https://b", "refresh", "https://a"⟩] := by decide +kernel
  obtain ⟨t, hrun, hsent⟩ := exists_run_free hview
  refine ⟨t, hrun, fun hhome ↦ ?_⟩
  have hissuer := hhome ⟨"https://b", "refresh", "https://a"⟩ (by
    rw [hsent]
    exact List.mem_singleton_self _)
  exact absurd hissuer (by decide)

end Shellius.Cli.Invocations
