import Shellius.Ca.Issue
import Shellius.Lib.Words

/-!
# What a directly issued certificate allows

`issue` puts every requested principal to the policies, and the seconds of the
certificate are at most what each answer allows.  Whether that bounds the
certificate depends on `ssh-keygen`, which reads the principals out of one
argument: the bound holds for a list of principals exactly when every name read
out of it is one of the list.  A principal with a comma in it stands for several
names, and none of them is put to the policies.
-/

namespace Shellius

open Lib

/-! ## The bound -/

/-- Somebody may log in under the name without approval. -/
def MayLogIn (db : Database) (params : IssueParams) (name : String) : Prop :=
  ∃ r, evaluate db (issueQuestion params name) = .ok r ∧ r.allowed = true ∧
    r.requiresApproval = false

structure WithinPolicy (db : Database) (params : IssueParams) (names : List String)
    (seconds : Int) : Prop where
  notProd : ∃ server, db.server params.orgId params.serverId = some server ∧
    server.environment ≠ .prod
  mayLogIn : ∀ n ∈ names, MayLogIn db params n
  week : seconds ≤ 604800
  maxTtl : ∀ n ∈ names, ∀ r, evaluate db (issueQuestion params n) = .ok r → 0 < r.maxTtl →
    seconds ≤ r.maxTtl

/-- `issue` keeps within the policies whenever it is asked for the principals:
in every organization, whatever else it is asked, a certificate it returns was
signed and stored with names and seconds within the policies, an error leaves
nothing behind, and an evaluation that fails is an error. -/
def KeepsWithinPolicy (sshKeygen : String → Option (List String)) (principals : List String) :
    Prop :=
  ∀ db st now serial id params, params.principals = principals →
    (∀ row, (issue sshKeygen db st now serial id params).2 = .ok row →
      (issue sshKeygen db st now serial id params).1.signed = row.signedCert :: st.signed ∧
      (issue sshKeygen db st now serial id params).1.certificates = st.certificates ++ [row] ∧
      row.validBefore = row.validAfter + row.signedCert.validity * 1000 ∧
      ∃ names, sshKeygen row.signedCert.principals = some names ∧
        WithinPolicy db params names row.signedCert.validity) ∧
    (∀ e, (issue sshKeygen db st now serial id params).2 = .error e →
      (issue sshKeygen db st now serial id params).1 = st) ∧
    ∀ p ∈ principals, ∀ e, evaluate db (issueQuestion params p) = .error e →
      ∃ e', (issue sshKeygen db st now serial id params).2 = .error e'

/-! ## What the function does -/

section

variable {db : Database} {params : IssueParams} {server : Server} {principals : List String}
  {seconds left : Int} {st : IssueStore} {now : Millis} {serial : Nat} {id : Id}
  {sshKeygen : String → Option (List String)}

theorem evaluatePrincipals_spec
    (h : evaluatePrincipals db params server principals seconds = .ok left) :
    (∀ p ∈ principals, MayLogIn db params p) ∧ left ≤ seconds ∧
      ∀ p ∈ principals, ∀ r, evaluate db (issueQuestion params p) = .ok r → 0 < r.maxTtl →
        left ≤ r.maxTtl := by
  induction principals generalizing seconds with
  | nil =>
    obtain rfl := Except.ok.inj h
    exact ⟨by simp, le_refl _, by simp⟩
  | cons p rest ih =>
    rw [evaluatePrincipals] at h
    cases hr : evaluate db (issueQuestion params p) with
    | error e => rw [hr] at h; cases h
    | ok r =>
      simp only [hr] at h
      split at h
      · split at h <;> cases h
      · rename_i happ
        split at h
        · cases h
        · rename_i hallowed
          obtain ⟨hmay, hle, hmax⟩ := ih h
          have hp : MayLogIn db params p := ⟨r, hr, by simpa using hallowed, by simpa using happ⟩
          refine ⟨?_, ?_, ?_⟩
          · intro q hq
            obtain rfl | hq := List.mem_cons.mp hq
            · exact hp
            · exact hmay q hq
          · split at hle <;> omega
          · intro q hq r' hr' hpos
            obtain rfl | hq := List.mem_cons.mp hq
            · obtain rfl := Except.ok.inj (hr.symm.trans hr')
              split at hle <;> omega
            · exact hmax q hq r' hr' hpos

theorem evaluatePrincipals_of_mayLogIn (h : ∀ p ∈ principals, MayLogIn db params p)
    (hpos : 0 < seconds) :
    ∃ left, evaluatePrincipals db params server principals seconds = .ok left ∧ 0 < left := by
  induction principals generalizing seconds with
  | nil => exact ⟨seconds, rfl, hpos⟩
  | cons p rest ih =>
    obtain ⟨r, hr, hallowed, happ⟩ := h p (by simp)
    have hrest : ∀ q ∈ rest, MayLogIn db params q := fun q hq ↦ h q (List.mem_cons_of_mem _ hq)
    simp only [evaluatePrincipals, hr, happ, hallowed]
    refine ih hrest ?_
    split <;> omega

theorem checkIssue_eq_ok (h : checkIssue params = .ok ()) :
    params.validitySeconds ≤ 604800 ∧ params.principals ≠ [] := by
  simp only [checkIssue] at h
  repeat' split at h
  all_goals cases h
  rename_i hne _ hweek
  exact ⟨by omega, hne⟩

theorem authoriseIssue_eq_ok {user : User}
    (h : authoriseIssue db params = .ok (user, left)) :
    checkIssue params = .ok () ∧ ∃ server, db.server params.orgId params.serverId = some server ∧
      server.environment ≠ .prod ∧
      evaluatePrincipals db params server params.principals params.validitySeconds = .ok left := by
  unfold authoriseIssue at h
  cases hc : checkIssue params with
  | error e => rw [hc] at h; cases h
  | ok _ =>
    cases hu : db.user params.orgId params.userId with
    | none => simp [hc, hu] at h
    | some u =>
      cases hs : db.server params.orgId params.serverId with
      | none => simp [hc, hu, hs] at h
      | some server =>
        simp only [hc, hu, hs] at h
        split at h
        · cases h
        · split at h
          · cases h
          · rename_i hprod
            cases he : evaluatePrincipals db params server params.principals
                params.validitySeconds with
            | error e => rw [he] at h; cases h
            | ok w =>
              rw [he] at h
              obtain ⟨-, rfl⟩ := Prod.ext_iff.mp (Except.ok.inj h)
              exact ⟨rfl, server, rfl, hprod, he⟩

theorem authoriseIssue_of {user : User} (hcheck : checkIssue params = .ok ())
    (huser : db.user params.orgId params.userId = some user)
    (hserver : db.server params.orgId params.serverId = some server)
    (hscope : inScope params.scope server = true) (hprod : server.environment ≠ .prod)
    (heval : evaluatePrincipals db params server params.principals params.validitySeconds =
      .ok left) :
    authoriseIssue db params = .ok (user, left) := by
  simp only [authoriseIssue, hcheck, huser, hserver, hscope, not_true_eq_false, if_false, hprod,
    heval]
  rfl

theorem issue_eq_ok {row : IssuedCertificate}
    (h : (issue sshKeygen db st now serial id params).2 = .ok row) :
    ∃ user names, authoriseIssue db params = .ok (user, row.signedCert.validity) ∧
      sshKeygen row.signedCert.principals = some names ∧
      row.signedCert.principals = ",".intercalate params.principals ∧
      row = issuedRow id now params row.signedCert ∧
      (issue sshKeygen db st now serial id params).1 =
        { st with
          signed := row.signedCert :: st.signed
          certificates := st.certificates ++ [row] } := by
  unfold issue at h ⊢
  cases ha : authoriseIssue db params with
  | error e => rw [ha] at h; cases h
  | ok w =>
    obtain ⟨user, seconds⟩ := w
    simp only [ha] at h ⊢
    cases hc : checkSign (signParamsOf params user seconds) with
    | error e => rw [hc] at h; cases h
    | ok _ =>
      simp only [hc] at h ⊢
      cases hk : activeKey st.caKeyPairs params.orgId with
      | none => rw [hk] at h; cases h
      | some caKey =>
        simp only [hk] at h ⊢
        cases hn : sshKeygen (keygenArgs (signParamsOf params user seconds) caKey
            serial).principals with
        | none => rw [hn] at h; cases h
        | some names =>
          simp only [hn] at h ⊢
          obtain rfl := Except.ok.inj h
          exact ⟨user, names, rfl, hn, rfl, rfl, rfl⟩

theorem issue_of_error {e : ApiError}
    (h : (issue sshKeygen db st now serial id params).2 = .error e) :
    (issue sshKeygen db st now serial id params).1 = st := by
  unfold issue at h ⊢
  cases ha : authoriseIssue db params with
  | error e => rfl
  | ok w =>
    simp only [ha] at h ⊢
    cases hc : checkSign (signParamsOf params w.1 w.2) with
    | error e => rfl
    | ok _ =>
      simp only [hc] at h ⊢
      cases hk : activeKey st.caKeyPairs params.orgId with
      | none => rfl
      | some caKey =>
        simp only [hk] at h ⊢
        cases hn : sshKeygen (keygenArgs (signParamsOf params w.1 w.2) caKey
            serial).principals with
        | none => rfl
        | some names => rw [hn] at h; cases h

theorem withinPolicy_of_issue {row : IssuedCertificate}
    (h : (issue sshKeygen db st now serial id params).2 = .ok row) :
    WithinPolicy db params params.principals row.signedCert.validity := by
  obtain ⟨user, -, ha, -⟩ := issue_eq_ok h
  obtain ⟨hcheck, server, hserver, hprod, heval⟩ := authoriseIssue_eq_ok ha
  obtain ⟨hmay, hle, hmax⟩ := evaluatePrincipals_spec heval
  obtain ⟨hweek, -⟩ := checkIssue_eq_ok hcheck
  exact ⟨⟨server, hserver, hprod⟩, hmay, by omega, hmax⟩

theorem WithinPolicy.mono {names names' : List String} (h : WithinPolicy db params names seconds)
    (hsub : ∀ n ∈ names', n ∈ names) : WithinPolicy db params names' seconds :=
  ⟨h.notProd, fun n hn ↦ h.mayLogIn n (hsub n hn), h.week, fun n hn ↦ h.maxTtl n (hsub n hn)⟩

theorem mayLogIn_iff {name : String} (hids : params.orgId ≠ "" ∧ params.userId ≠ "")
    (hserver : db.server params.orgId params.serverId = some server)
    (hprod : server.environment ≠ .prod)
    (hbypass : ¬ mayBypass db params.orgId params.userId server) :
    MayLogIn db params name ↔
      applying db params.orgId params.userId server (some name) .deny = [] ∧
        ∃ p, Leads db params.orgId params.userId server (some name) .allow p ∧
          p.requireApproval = false := by
  constructor
  · rintro ⟨r, hr, hallowed, happ⟩
    obtain ⟨-, -, -, server', hserver', hruled⟩ := evaluate_eq_ok_iff.mp hr
    obtain rfl : server' = server := Option.some.inj (hserver'.symm.trans hserver)
    cases hruled with
    | denied | unmatched => simp [deniedBy] at hallowed
    | bypass _ hb => exact absurd hb hbypass
    | governed hdeny _ hleads => exact ⟨hdeny, _, hleads, by simpa [hprod] using happ⟩
  · rintro ⟨hdeny, p, hleads, happ⟩
    have hid : params.serverId ≠ "" := by
      obtain ⟨hmem, hid, -⟩ := Database.server_spec hserver
      rw [← hid]
      exact db.serverTruthy server hmem
    refine ⟨_, evaluate_eq_ok_iff.mpr ⟨hids.1, hids.2, hid, server, hserver,
      .governed hdeny hbypass hleads⟩, rfl, ?_⟩
    simp [hprod, happ]

end

/-! ## An organization that tells names apart -/

def lonelyServer : Server where
  id := "s1"
  orgId := "o1"
  customerId := "c1"

def anaPolicy (id : Id) (effect : PolicyEffect) (principals : List String) : AccessPolicy where
  id := id
  orgId := "o1"
  effect := effect
  allowedPrincipals := principals
  maxSessionDuration := 3600
  subjects := [⟨.user, "u1"⟩]

/-- Ana and a server; she may log in under the names of one list, but not under
those of another, if there is one. -/
def namesDb (listed : List String) (denied : Option (List String)) : Database where
  users := [{ id := "u1", orgId := "o1", email := "ana@acme.io" }]
  servers := [lonelyServer]
  accessPolicies := anaPolicy "p1" .allow listed ::
    (denied.map (anaPolicy "p2" .deny)).toList
  policyKey := by cases denied <;> simp [anaPolicy]

def anaIssue (principals : List String) : IssueParams where
  orgId := "o1"
  userId := "u1"
  serverId := "s1"
  principals := principals
  validitySeconds := 600
  publicKey := "ssh-ed25519 A"

def anaStore : IssueStore where
  caKeyPairs := [newKeyPair "k1" "o1" "primary" ⟨"pub1", "enc1", "SHA256:1"⟩]

section

variable {listed principals : List String} {denied : Option (List String)} {name : String}

theorem applies_anaPolicy {id : Id} {effect : PolicyEffect} :
    applies (namesDb listed denied) "o1" "u1" lonelyServer (some name)
      (anaPolicy id effect principals) = true ↔
      name = "" ∨ principals = [] ∨ name ∈ principals := by
  have hconcerns : ∀ groups keys, concerns "o1" "u1" groups keys (anaPolicy id effect principals) =
      true := by
    intro groups keys
    simp [concerns, anaPolicy, subjectMatches]
  have htarget : targetMatches lonelyServer lonelyServer.id (anaPolicy id effect principals) =
      true := by
    simp [targetMatches, anaPolicy, labelsMatch]
  rw [applies, hconcerns, htarget, Bool.true_and, Bool.true_and, principalMatches_some]
  simp [anaPolicy, lonelyServer]

theorem mayLogIn_namesDb :
    MayLogIn (namesDb listed denied) (anaIssue principals) name ↔
      (name = "" ∨ listed = [] ∨ name ∈ listed) ∧
        ∀ names ∈ denied, ¬ (name = "" ∨ names = [] ∨ name ∈ names) := by
  have hserver : (namesDb listed denied).server "o1" "s1" = some lonelyServer := rfl
  have hbypass : ¬ mayBypass (namesDb listed denied) "o1" "u1" lonelyServer := by
    have : mayBypass (namesDb listed denied) "o1" "u1" lonelyServer = false := rfl
    simp [this]
  have hallow : applying (namesDb listed denied) "o1" "u1" lonelyServer (some name) .allow =
      if name = "" ∨ listed = [] ∨ name ∈ listed then [anaPolicy "p1" .allow listed] else [] := by
    have hdrop : ∀ p ∈ (denied.map (anaPolicy "p2" .deny)).toList,
        ¬ (applies (namesDb listed denied) "o1" "u1" lonelyServer (some name) p &&
          decide (p.effect = .allow)) = true := by
      intro p hp
      obtain ⟨names, -, rfl⟩ := Option.map_eq_some_iff.mp (Option.mem_toList.mp hp)
      simp [anaPolicy]
    have hkeep : applies (namesDb listed denied) "o1" "u1" lonelyServer (some name)
        (anaPolicy "p1" .allow listed) = true ↔ name = "" ∨ listed = [] ∨ name ∈ listed :=
      applies_anaPolicy
    change List.filter _ (anaPolicy "p1" .allow listed :: _) = _
    rw [List.filter_cons, List.filter_eq_nil_iff.mpr hdrop]
    by_cases hname : name = "" ∨ listed = [] ∨ name ∈ listed
    · have hlisted : (applies (namesDb listed denied) "o1" "u1" lonelyServer (some name)
          (anaPolicy "p1" .allow listed) &&
          decide ((anaPolicy "p1" .allow listed).effect = .allow)) = true := by
        rw [hkeep.mpr hname]
        rfl
      rw [if_pos hname, if_pos hlisted]
    · rw [if_neg hname, if_neg fun h ↦ hname (hkeep.mp (Bool.and_eq_true_iff.mp h).1)]
  have hdeny : applying (namesDb listed denied) "o1" "u1" lonelyServer (some name) .deny = [] ↔
      ∀ names ∈ denied, ¬ (name = "" ∨ names = [] ∨ name ∈ names) := by
    rw [List.eq_nil_iff_forall_not_mem]
    constructor
    · intro h names hnames hname
      refine h (anaPolicy "p2" .deny names) (mem_applying.mpr ⟨?_, applies_anaPolicy.mpr hname, rfl⟩)
      exact List.mem_cons_of_mem _ (Option.mem_toList.mpr (Option.map_eq_some_iff.mpr
        ⟨names, hnames, rfl⟩))
    · intro h p hp
      obtain ⟨hmem, happ, heff⟩ := mem_applying.mp hp
      obtain rfl | hmem := List.mem_cons.mp hmem
      · cases heff
      · obtain ⟨names, hnames, rfl⟩ := Option.map_eq_some_iff.mp (Option.mem_toList.mp hmem)
        exact h names hnames (applies_anaPolicy.mp happ)
  have hleads : (∃ p, Leads (namesDb listed denied) "o1" "u1" lonelyServer (some name) .allow p ∧
      p.requireApproval = false) ↔ (name = "" ∨ listed = [] ∨ name ∈ listed) := by
    unfold Leads
    rw [hallow]
    constructor
    · rintro ⟨p, hp, -⟩
      by_contra hname
      rw [if_neg hname] at hp
      exact List.not_mem_nil hp.mem
    · intro hname
      rw [if_pos hname]
      obtain ⟨p, hp⟩ : ∃ p, FirstMin AccessPolicy.priority [anaPolicy "p1" .allow listed] p :=
        exists_firstMin (by simp)
      obtain rfl := List.mem_singleton.mp hp.mem
      exact ⟨_, hp, rfl⟩
  have hids : (anaIssue principals).orgId ≠ "" ∧ (anaIssue principals).userId ≠ "" := by
    simp [anaIssue]
  rw [mayLogIn_iff hids hserver (by decide) hbypass, ← hdeny, ← hleads, and_comm]
  rfl

end

/-! ## The names of the certificate -/

def commaParts (s : String) : List String := (s.toList.splitOn ',').map String.ofList

theorem commaParts_intercalate {ps : List String} (h : ps ≠ []) :
    commaParts (",".intercalate ps) = ps.flatMap commaParts := by
  have hcomma : ",".toList = [','] := by decide
  have hmap : ps.map String.toList ≠ [] := by simpa using h
  rw [commaParts, String.toList_intercalate, hcomma, splitOn_intercalate_eq_flatMap _ hmap,
    List.flatMap_map, List.map_flatMap]
  rfl

/-- `-n` takes "one or more principals", "separated by commas": a certificate
that is signed has the parts of the argument for its names. -/
structure ReadsCommas (sshKeygen : String → Option (List String)) : Prop where
  names_eq : ∀ arg names, sshKeygen arg = some names → names = commaParts arg

section

variable {sshKeygen : String → Option (List String)} {principals : List String}

theorem ReadsCommas.mem_names {names : List String} {n : String} (hread : ReadsCommas sshKeygen)
    (hne : principals ≠ []) (h : sshKeygen (",".intercalate principals) = some names) :
    n ∈ names ↔ ∃ p ∈ principals, n ∈ commaParts p := by
  rw [hread.names_eq _ _ h, commaParts_intercalate hne, List.mem_flatMap]

theorem issue_anaIssue {listed names : List String} {denied : Option (List String)}
    (hne : principals ≠ []) (hsign : sshKeygen (",".intercalate principals) = some names)
    (hmay : ∀ p ∈ principals, MayLogIn (namesDb listed denied) (anaIssue principals) p) :
    ∃ row, (issue sshKeygen (namesDb listed denied) anaStore 0 1 "cert1"
      (anaIssue principals)).2 = .ok row := by
  have hcheck : checkIssue (anaIssue principals) = .ok () := by
    simp [checkIssue, anaIssue, hne]
  obtain ⟨left, hleft, hpos⟩ : ∃ left, evaluatePrincipals (namesDb listed denied)
      (anaIssue principals) lonelyServer principals 600 = .ok left ∧ 0 < left :=
    evaluatePrincipals_of_mayLogIn hmay (by decide)
  have hauth : authoriseIssue (namesDb listed denied) (anaIssue principals) =
      .ok ({ id := "u1", orgId := "o1", email := "ana@acme.io" }, left) :=
    authoriseIssue_of hcheck rfl rfl rfl (by decide) hleft
  have hcheckSign : checkSign (signParamsOf (anaIssue principals)
      { id := "u1", orgId := "o1", email := "ana@acme.io" } left) = .ok () := by
    have : ¬ left ≤ 0 := by omega
    simp [checkSign, signParamsOf, anaIssue, hne, truthy, this]
  have hkey : activeKey anaStore.caKeyPairs (anaIssue principals).orgId =
      some (newKeyPair "k1" "o1" "primary" ⟨"pub1", "enc1", "SHA256:1"⟩) := rfl
  rw [issue, hauth]
  simp only [hcheckSign, hkey]
  simp only [keygenArgs, signParamsOf, anaIssue] at hsign ⊢
  rw [hsign]
  exact ⟨_, rfl⟩

theorem exists_namesDb {n : String} (h : n ∉ principals) :
    ∃ listed denied,
      (∀ p ∈ principals, MayLogIn (namesDb listed denied) (anaIssue principals) p) ∧
        ¬ MayLogIn (namesDb listed denied) (anaIssue principals) n := by
  by_cases hempty : "" ∈ principals
  · have hn : n ≠ "" := by rintro rfl; exact h hempty
    refine ⟨principals, none, fun p hp ↦ mayLogIn_namesDb.mpr ⟨.inr (.inr hp), by simp⟩, ?_⟩
    rw [mayLogIn_namesDb]
    rintro ⟨h' | h' | h', -⟩
    · exact hn h'
    · rw [h'] at hempty; simp at hempty
    · exact h h'
  · refine ⟨[], some [n], fun p hp ↦ mayLogIn_namesDb.mpr ⟨.inr (.inl rfl), ?_⟩, ?_⟩
    · rintro names ⟨⟩ (h' | h' | h')
      · exact hempty (h' ▸ hp)
      · cases h'
      · exact h (List.mem_singleton.mp h' ▸ hp)
    · rw [mayLogIn_namesDb]
      rintro ⟨-, hdeny⟩
      exact hdeny [n] rfl (.inr (.inr (by simp)))

/-- Certificates for the principals stay within the policies exactly if
`ssh-keygen` refuses them or every part of every principal is a principal that
was asked for. -/
theorem keepsWithinPolicy_iff (hread : ReadsCommas sshKeygen) :
    KeepsWithinPolicy sshKeygen principals ↔
      (sshKeygen (",".intercalate principals) ≠ none →
        ∀ p ∈ principals, ∀ n ∈ commaParts p, n ∈ principals) := by
  constructor
  · intro hkeep hsign p hp n hn
    by_contra hnot
    obtain ⟨names, hnames⟩ := Option.ne_none_iff_exists'.mp hsign
    have hne : principals ≠ [] := List.ne_nil_of_mem hp
    obtain ⟨listed, denied, hmay, hforbidden⟩ := exists_namesDb hnot
    obtain ⟨row, hrow⟩ := issue_anaIssue hne hnames hmay
    obtain ⟨hok, -, -⟩ := hkeep (namesDb listed denied) anaStore 0 1 "cert1" (anaIssue principals)
      rfl
    obtain ⟨-, -, -, names', hnames', hpolicy⟩ := hok row hrow
    obtain ⟨-, -, -, -, hargs, -, -⟩ := issue_eq_ok hrow
    rw [hargs] at hnames'
    exact hforbidden (hpolicy.mayLogIn n ((hread.mem_names hne hnames').mpr ⟨p, hp, hn⟩))
  · rintro hparts db st now serial id params rfl
    refine ⟨?_, fun e he ↦ issue_of_error he, ?_⟩
    · intro row hrow
      obtain ⟨user, names, ha, hnames, hargs, hissued, hstore⟩ := issue_eq_ok hrow
      have hwithin := withinPolicy_of_issue hrow
      rw [hstore]
      refine ⟨rfl, rfl, by rw [hissued]; rfl, names, hnames, hwithin.mono ?_⟩
      intro n hn
      have hne : params.principals ≠ [] := (checkIssue_eq_ok (authoriseIssue_eq_ok ha).1).2
      rw [hargs] at hnames
      obtain ⟨p, hp, hn⟩ := (hread.mem_names hne hnames).mp hn
      exact hparts (by rw [hnames]; simp) p hp n hn
    · intro p hp e he
      cases hresult : (issue sshKeygen db st now serial id params).2 with
      | error e' => exact ⟨e', rfl⟩
      | ok row =>
        obtain ⟨r, hr, -, -⟩ := (withinPolicy_of_issue hresult).mayLogIn p hp
        cases he.symm.trans hr

end

/-- `ssh-keygen` as it comes: it splits its argument at commas and refuses an
empty name. -/
def opensshKeygen (arg : String) : Option (List String) :=
  if "" ∈ commaParts arg then none else some (commaParts arg)

theorem readsCommas_opensshKeygen : ReadsCommas opensshKeygen where
  names_eq := by
    intro arg names h
    rw [opensshKeygen] at h
    split at h
    · cases h
    · exact (Option.some.inj h).symm

theorem keepsWithinPolicy_deploy : KeepsWithinPolicy opensshKeygen ["deploy", "app"] :=
  (keepsWithinPolicy_iff readsCommas_opensshKeygen).mpr fun _ ↦ by decide

/-- Ana may log in under any name but root.  She asks for the one principal
`deploy,root`, which passes every policy, and gets a certificate for root. -/
theorem deployRoot_signed :
    (∃ row, (issue opensshKeygen (namesDb [] (some ["root"])) anaStore 0 1 "cert1"
        (anaIssue ["deploy,root"])).2 = .ok row ∧
      opensshKeygen row.signedCert.principals = some ["deploy", "root"] ∧
      (evaluate (namesDb [] (some ["root"])) (issueQuestion (anaIssue ["deploy,root"])
        "root")).toOption.map Evaluation.allowed = some false) ∧
      ¬ KeepsWithinPolicy opensshKeygen ["deploy,root"] := by
  have hnames : opensshKeygen "deploy,root" = some ["deploy", "root"] := by decide
  have hdenied : (evaluate (namesDb [] (some ["root"])) (issueQuestion (anaIssue ["deploy,root"])
      "root")).toOption.map Evaluation.allowed = some false := by decide
  obtain ⟨row, hrow, hargs⟩ : ∃ row, (issue opensshKeygen (namesDb [] (some ["root"])) anaStore 0 1
      "cert1" (anaIssue ["deploy,root"])).2 = .ok row ∧
      row.signedCert.principals = "deploy,root" := ⟨_, rfl, rfl⟩
  have hcert : opensshKeygen row.signedCert.principals = some ["deploy", "root"] := by
    rw [hargs, hnames]
  refine ⟨⟨row, hrow, hcert, hdenied⟩, fun hkeep ↦ ?_⟩
  obtain ⟨hok, -, -⟩ := hkeep (namesDb [] (some ["root"])) anaStore 0 1 "cert1"
    (anaIssue ["deploy,root"]) rfl
  obtain ⟨-, -, -, names, hsigned, hwithin⟩ := hok row hrow
  obtain rfl := Option.some.inj (hcert.symm.trans hsigned)
  obtain ⟨r, hr, hallowed, -⟩ := hwithin.mayLogIn "root" (by simp)
  rw [hr] at hdenied
  simp [Except.toOption, hallowed] at hdenied

end Shellius
