import Shellius.Lib.Expiring
import Shellius.Lib.Pool
import Shellius.Text

/-!
# Access tokens of the mail providers

The adapters for Google and Microsoft trade the credentials of a provider for an access token and
keep it in one cache of the process until it is about to expire.  The cache serves every
organization.  A token is looked up under a key that is made from credentials: all of them in the
mode `oauth` of Google and at Microsoft, but for a service account not its private key.

Whoever sends looks into the cache first, and asks for a token otherwise; other sends may look and
ask before the answer is there.
-/

namespace Shellius.Email

open Lib

/-! ## Credentials -/

/-- A service account key, as far as it is used. -/
structure ServiceAccount where
  client_email : String
  private_key_id : Option String
  private_key : String
deriving DecidableEq

/-- The settings that a send is made with. -/
inductive Config where
  | oauth (clientId clientSecret refreshToken : Option String)
  | serviceAccount (sa : ServiceAccount) (delegatedUser : String)
  | microsoft (tenantId clientId clientSecret sender : String)
deriving DecidableEq

/-- `SSO_GOOGLE_CLIENT_ID` and `SSO_GOOGLE_CLIENT_SECRET` -/
structure Env where
  ssoGoogleClientId : Option String := none
  ssoGoogleClientSecret : Option String := none

/-- What is sent to a token endpoint. -/
inductive TokenRequest where
  | refresh (client_id client_secret refresh_token : String)
  | assertion (iss sub : String) (keyid : Option String) (signedWith : String)
  | clientCredentials (tenantId client_id client_secret : String)

/-- What only the owner of the credentials knows. -/
inductive Secret where
  | refreshToken (client_secret refresh_token : String)
  | privateKey (key : String)
  | clientSecret (client_secret : String)
deriving DecidableEq

def TokenRequest.secret : TokenRequest → Secret
  | .refresh _ client_secret refresh_token => .refreshToken client_secret refresh_token
  | .assertion _ _ _ signedWith => .privateKey signedWith
  | .clientCredentials _ _ client_secret => .clientSecret client_secret

section

variable (env : Env)

def resolveOAuthClient (clientId clientSecret : Option String) : Option String × Option String :=
  ((truthy clientId).or (truthy env.ssoGoogleClientId),
    (truthy clientSecret).or (truthy env.ssoGoogleClientSecret))

/-- The request for a token; a Google account that is not connected has none. -/
def Config.request : Config → Option TokenRequest
  | .oauth clientId clientSecret refreshToken =>
    match resolveOAuthClient env clientId clientSecret, truthy refreshToken with
    | (some id, some secret), some refresh => some (.refresh id secret refresh)
    | _, _ => none
  | .serviceAccount sa delegatedUser =>
    some (.assertion sa.client_email delegatedUser (truthy sa.private_key_id) sa.private_key)
  | .microsoft tenantId clientId clientSecret _ =>
    some (.clientCredentials tenantId clientId clientSecret)

variable {κ : Type*} (credentialKey : List String → κ)

/-- The key of the cache: the provider and a hash of credentials. -/
def Config.cacheKey : Config → String × κ
  | .oauth clientId clientSecret refreshToken =>
    let client := resolveOAuthClient env clientId clientSecret
    ("google:", credentialKey
      [client.1.getD "", client.2.getD "", refreshToken.getD ""])
  | .serviceAccount sa delegatedUser =>
    ("google-sa:", credentialKey [sa.client_email, sa.private_key_id.getD "", delegatedUser])
  | .microsoft tenantId clientId clientSecret _ =>
    ("microsoft:", credentialKey [tenantId, clientId, clientSecret])

end

/-! ## The cache -/

/-- A token, with the request that obtained it. -/
structure Token where
  access_token : String
  origin : TokenRequest

/-- `Math.max(0, (Number(expiresInSeconds) || 3600) - 60) * 1000` -/
def ttlMs (expiresIn : Option Int) : Int :=
  max 0 ((expiresIn.filter (· ≠ 0)).getD 3600 - 60) * 1000

/-- The process, with the sends that wait for a token and those that had one. -/
structure State (κ : Type*) where
  cache : Expiring (String × κ) Token Int := fun _ ↦ none
  waiting : List Config := []
  sent : List (Config × Token) := []

inductive Event where
  | send (now : Int) (c : Config)
  | answer (now : Int) (c : Config) (granted : Option (String × Option Int))

/-- The settings of a send. -/
def Event.config : Event → Config
  | .send _ c | .answer _ c _ => c

section

variable {κ : Type*} [DecidableEq κ] (env : Env) (credentialKey : List String → κ)
  (valid : TokenRequest → Bool)

/-- `getCachedToken` and, on a hit, the send. -/
def look (s : State κ) (now : Int) (c : Config) : State κ :=
  let key := c.cacheKey env credentialKey
  match s.cache.get now key with
  | some token => { s with sent := s.sent ++ [(c, token)] }
  | none => { s with cache := s.cache.del key, waiting := s.waiting ++ [c] }

/-- A token is granted: `setCachedToken` and the send. -/
def grant (s : State κ) (now : Int) (c : Config) (r : TokenRequest) (access_token : String)
    (expiresIn : Option Int) : State κ :=
  let token : Token := ⟨access_token, r⟩
  { cache := s.cache.set (c.cacheKey env credentialKey) token (some (now + ttlMs expiresIn))
    waiting := s.waiting.erase c
    sent := s.sent ++ [(c, token)] }

/-- A send begins, or the answer to a request for a token arrives.  The endpoints grant tokens to
valid credentials only; any request may fail. -/
def step (s : State κ) : Event → Option (State κ)
  | .send now c =>
    match c.request env with
    | none => some s
    | some _ => some (look env credentialKey s now c)
  | .answer now c granted =>
    match c.request env with
    | none => none
    | some r =>
      if c ∈ s.waiting then
        match granted with
        | none => some { s with waiting := s.waiting.erase c }
        | some (access_token, expiresIn) =>
          if valid r then some (grant env credentialKey s now c r access_token expiresIn)
          else none
      else none

/-! ## Isolation -/

/-- Every send had a token that its own secret obtained, and its own credentials are valid. -/
def Isolated (s : State κ) : Prop :=
  ∀ p ∈ s.sent, ∃ own, p.1.request env = some own ∧ valid own ∧
    p.2.origin.secret = own.secret

/-- Service accounts with the same e-mail, key id and user have the same private key, if one of
them is valid. -/
def KeysApart (used : Config → Prop) : Prop :=
  ∀ sa sa' : ServiceAccount, ∀ user : String, used (.serviceAccount sa user) →
    used (.serviceAccount sa' user) → sa.client_email = sa'.client_email →
    sa.private_key_id.getD "" = sa'.private_key_id.getD "" →
    (∃ r, (Config.serviceAccount sa user).request env = some r ∧ valid r) →
    sa.private_key = sa'.private_key

/-- What is in the cache was obtained by settings in use that have its key. -/
structure Inv (used : Config → Prop) (s : State κ) : Prop where
  cached : ∀ key e, s.cache key = some e → ∃ c, used c ∧ c.cacheKey env credentialKey = key ∧
    c.request env = some e.value.origin ∧ valid e.value.origin
  sent : ∀ p ∈ s.sent, used p.1 ∧ ∃ c, used c ∧
    c.cacheKey env credentialKey = p.1.cacheKey env credentialKey ∧
    c.request env = some p.2.origin ∧ valid p.2.origin ∧ (p.1.request env).isSome
  waiting : ∀ c ∈ s.waiting, used c

end

section

variable {κ : Type*} {env : Env} {credentialKey : List String → κ}
  {valid : TokenRequest → Bool} {used : Config → Prop} {s t : State κ} {now : Int} {c d : Config}
  {r r' : TokenRequest}

theorem request_oauth {clientId clientSecret refreshToken : Option String}
    (h : (Config.oauth clientId clientSecret refreshToken).request env = some r) :
    ∃ id secret refresh, resolveOAuthClient env clientId clientSecret = (some id, some secret) ∧
      refreshToken = some refresh ∧ r = .refresh id secret refresh := by
  rw [Config.request] at h
  split at h
  · rename_i id secret refresh hclient hrefresh
    exact ⟨id, secret, refresh, hclient, (truthy_eq_some.mp hrefresh).1, (Option.some.inj h).symm⟩
  · cases h

theorem truthy_eq_of_getD {o o' : Option String} (h : o.getD "" = o'.getD "") :
    truthy o = truthy o' := by
  cases o with
  | none =>
    cases o' with
    | none => rfl
    | some t =>
      obtain rfl : "" = t := h
      rfl
  | some s =>
    cases o' with
    | none =>
      obtain rfl : s = "" := h
      rfl
    | some t =>
      obtain rfl : s = t := h
      rfl

theorem request_eq_of_cacheKey (hkey : Function.Injective credentialKey)
    (hapart : KeysApart env valid used) (hc : used c) (hd : used d)
    (h : c.cacheKey env credentialKey = d.cacheKey env credentialKey)
    (hr : c.request env = some r) (hvalid : valid r) (hr' : d.request env = some r') : r = r' := by
  obtain ⟨hprovider, hhash⟩ := Prod.ext_iff.mp h
  cases c with
  | oauth clientId clientSecret refreshToken =>
    cases d with
    | serviceAccount _ _ => exact absurd hprovider (by simp [Config.cacheKey])
    | microsoft _ _ _ _ => exact absurd hprovider (by simp [Config.cacheKey])
    | oauth clientId' clientSecret' refreshToken' =>
      obtain ⟨id, secret, refresh, hclient, rfl, rfl⟩ := request_oauth hr
      obtain ⟨id', secret', refresh', hclient', rfl, rfl⟩ := request_oauth hr'
      have hparts := hkey hhash
      simp only [hclient, hclient', Option.getD_some, List.cons.injEq, and_true] at hparts
      obtain ⟨rfl, rfl, rfl⟩ := hparts
      rfl
  | serviceAccount sa user =>
    cases d with
    | oauth _ _ _ => exact absurd hprovider (by simp [Config.cacheKey])
    | microsoft _ _ _ _ => exact absurd hprovider (by simp [Config.cacheKey])
    | serviceAccount sa' user' =>
      have hparts := hkey hhash
      simp only [List.cons.injEq, and_true] at hparts
      obtain ⟨hemail, hid, rfl⟩ := hparts
      have hprivate := hapart sa sa' user hc hd hemail hid ⟨r, hr, hvalid⟩
      obtain rfl := Option.some.inj hr
      obtain rfl := Option.some.inj hr'
      rw [hemail, hprivate, truthy_eq_of_getD hid]
  | microsoft tenantId clientId clientSecret sender =>
    cases d with
    | oauth _ _ _ => exact absurd hprovider (by simp [Config.cacheKey])
    | serviceAccount _ _ => exact absurd hprovider (by simp [Config.cacheKey])
    | microsoft tenantId' clientId' clientSecret' sender' =>
      have hparts := hkey hhash
      simp only [List.cons.injEq, and_true] at hparts
      obtain ⟨rfl, rfl, rfl⟩ := hparts
      obtain rfl := Option.some.inj hr
      exact Option.some.inj hr'

/-! ## Steps -/

theorem Inv.empty : Inv env credentialKey valid used {} where
  cached _ _ h := by cases h
  sent _ h := absurd h List.not_mem_nil
  waiting _ h := absurd h List.not_mem_nil

variable [DecidableEq κ]

theorem Inv.look (h : Inv env credentialKey valid used s) (hc : used c)
    (hr : c.request env = some r) :
    Inv env credentialKey valid used (look env credentialKey s now c) := by
  unfold Email.look
  dsimp only
  split
  · rename_i token hget
    obtain ⟨e, he, -, rfl⟩ := Expiring.get_eq_some.mp hget
    obtain ⟨d, hd, hkey, hrequest, hvalid⟩ := h.cached _ _ he
    refine ⟨h.cached, ?_, h.waiting⟩
    intro p hp
    obtain hp | hp := List.mem_append.mp hp
    · exact h.sent p hp
    · obtain rfl := List.mem_singleton.mp hp
      exact ⟨hc, d, hd, hkey, hrequest, hvalid, Option.isSome_iff_exists.mpr ⟨r, hr⟩⟩
  · refine ⟨?_, h.sent, ?_⟩
    · intro key e he
      dsimp only at he
      by_cases hk : key = c.cacheKey env credentialKey
      · rw [hk, Expiring.del_self] at he
        cases he
      · rw [Expiring.del_of_ne hk] at he
        exact h.cached key e he
    · intro d hd
      obtain hd | hd := List.mem_append.mp hd
      · exact h.waiting d hd
      · rw [List.mem_singleton.mp hd]
        exact hc

theorem Inv.grant (h : Inv env credentialKey valid used s) (hc : used c)
    (hr : c.request env = some r) (hvalid : valid r) (access_token : String)
    (expiresIn : Option Int) :
    Inv env credentialKey valid used (grant env credentialKey s now c r access_token expiresIn) where
  cached key e he := by
    unfold Email.grant at he
    dsimp only at he
    by_cases hk : key = c.cacheKey env credentialKey
    · rw [hk, Expiring.set_self] at he
      obtain rfl := Option.some.inj he
      exact ⟨c, hc, hk.symm, hr, hvalid⟩
    · rw [Expiring.set_of_ne hk] at he
      exact h.cached key e he
  sent p hp := by
    obtain hp | hp := List.mem_append.mp hp
    · exact h.sent p hp
    · obtain rfl := List.mem_singleton.mp hp
      exact ⟨hc, c, hc, rfl, hr, hvalid, Option.isSome_iff_exists.mpr ⟨r, hr⟩⟩
  waiting d hd := h.waiting d (List.mem_of_mem_erase hd)

theorem Inv.step {e : Event} (h : Inv env credentialKey valid used s) (hc : used e.config)
    (hstep : step env credentialKey valid s e = some t) : Inv env credentialKey valid used t := by
  cases e with
  | send now c =>
    unfold Email.step at hstep
    dsimp only at hstep
    split at hstep
    · obtain rfl := Option.some.inj hstep
      exact h
    · rename_i r hr
      obtain rfl := Option.some.inj hstep
      exact h.look hc hr
  | answer now c granted =>
    unfold Email.step at hstep
    dsimp only at hstep
    split at hstep
    · cases hstep
    · rename_i r hr
      split at hstep
      · split at hstep
        · obtain rfl := Option.some.inj hstep
          exact ⟨h.cached, h.sent, fun d hd ↦ h.waiting d (List.mem_of_mem_erase hd)⟩
        · split at hstep
          · rename_i hvalid
            obtain rfl := Option.some.inj hstep
            exact h.grant hc hr hvalid _ _
          · cases hstep
      · cases hstep

theorem Inv.isolated (h : Inv env credentialKey valid used s)
    (hkey : Function.Injective credentialKey) (hapart : KeysApart env valid used) :
    Isolated env valid s := by
  intro p hp
  obtain ⟨hc, d, hd, hsame, hr, hvalid, hown⟩ := h.sent p hp
  obtain ⟨own, hown⟩ := Option.isSome_iff_exists.mp hown
  obtain rfl := request_eq_of_cacheKey hkey hapart hd hc hsame hr hvalid hown
  exact ⟨_, hown, hvalid, rfl⟩

theorem look_of_miss (h : s.cache.get now (c.cacheKey env credentialKey) = none) :
    c ∈ (look env credentialKey s now c).waiting := by
  unfold look
  dsimp only
  rw [h]
  exact List.mem_append_right _ (List.mem_singleton.mpr rfl)

theorem look_of_hit {token : Token}
    (h : s.cache.get now (c.cacheKey env credentialKey) = some token) :
    (c, token) ∈ (look env credentialKey s now c).sent := by
  unfold look
  dsimp only
  rw [h]
  exact List.mem_append_right _ (List.mem_singleton.mpr rfl)

theorem exists_run_of_sameKey (used : Config → Prop) (hc : used c) (hd : used d) (hr : c.request env = some r)
    (hvalid : valid r) (hr' : d.request env = some r')
    (hsame : d.cacheKey env credentialKey = c.cacheKey env credentialKey) :
    ∃ events t, Run (step env credentialKey valid) (fun _ e _ ↦ used e.config) {} events t ∧
      (d, (⟨"", r⟩ : Token)) ∈ t.sent := by
  let s₁ := look env credentialKey {} 0 c
  let s₂ := grant env credentialKey s₁ 0 c r "" none
  have hwait : c ∈ s₁.waiting := look_of_miss rfl
  have hfirst : step env credentialKey valid {} (.send 0 c) = some s₁ := by
    simp only [step, hr]
    rfl
  have hanswer : step env credentialKey valid s₁ (.answer 0 c (some ("", none))) = some s₂ := by
    simp only [step, hr, if_pos hwait, if_pos hvalid]
    rfl
  have hsecond : step env credentialKey valid s₂ (.send 1 d) =
      some (look env credentialKey s₂ 1 d) := by
    simp only [step, hr']
  have hget : s₂.cache.get 1 (d.cacheKey env credentialKey) = some ⟨"", r⟩ := by
    refine Expiring.get_eq_some.mpr ⟨⟨⟨"", r⟩, some (0 + ttlMs none)⟩, ?_, ?_, rfl⟩
    · rw [hsame]
      exact Expiring.set_self
    · exact Entry.live_mk_some.mpr (by decide)
  exact ⟨_, _, ((Run.single hfirst hc).snoc hanswer hc).snoc hsecond hd, look_of_hit hget⟩

/-- The runs in which only some settings are sent with keep every token with the secret that obtained
it, if and only if no two service accounts among these settings are told apart by their private keys
alone. -/
theorem tokens_isolated_iff (env : Env) (valid : TokenRequest → Bool)
    (hkey : Function.Injective credentialKey) (used : Config → Prop) :
    (∀ events t, Run (step env credentialKey valid) (fun _ e _ ↦ used e.config) {} events t →
      Isolated env valid t) ↔ KeysApart env valid used := by
  constructor
  · rintro h sa sa' user hc hc' hemail hid ⟨r, hr, hvalid⟩
    -- the first account obtains a token, and the second one finds it
    have hsame : (Config.serviceAccount sa' user).cacheKey env credentialKey =
        (Config.serviceAccount sa user).cacheKey env credentialKey := by
      rw [Config.cacheKey, Config.cacheKey, hemail, hid]
    obtain ⟨events, t, hrun, hsent⟩ := exists_run_of_sameKey used hc hc' hr hvalid rfl hsame
    obtain ⟨own, hown, -, hsecret⟩ := h _ t hrun _ hsent
    obtain rfl := Option.some.inj hr
    obtain rfl := Option.some.inj hown
    exact Secret.privateKey.inj hsecret
  · intro hapart events t hrun
    exact (hrun.invariant Inv.empty fun s e u hs hstep hused ↦ hs.step hused hstep).isolated
      hkey hapart

/-- Two organizations that send with keys of one account. -/
theorem tokens_isolated_in_use :
    KeysApart {} (fun r ↦ r.secret = .privateKey "k")
        (· ∈ [Config.serviceAccount ⟨"a@p", some "1", "k"⟩ "m@a",
          .serviceAccount ⟨"a@p", some "2", "l"⟩ "m@a"]) ∧
      ∀ events t, Run (step {} (fun parts ↦ parts) fun r ↦ r.secret = .privateKey "k")
          (fun _ e _ ↦ e.config ∈ [Config.serviceAccount ⟨"a@p", some "1", "k"⟩ "m@a",
            .serviceAccount ⟨"a@p", some "2", "l"⟩ "m@a"]) {} events t →
        Isolated {} (fun r ↦ r.secret = .privateKey "k") t := by
  refine (and_iff_left_of_imp (tokens_isolated_iff {} _ (fun _ _ h ↦ h) _).mpr).mpr ?_
  intro sa sa' user hsa hsa' _ hid _
  simp only [List.mem_cons, List.not_mem_nil, or_false, Config.serviceAccount.injEq] at hsa hsa'
  obtain ⟨rfl, rfl⟩ | ⟨rfl, rfl⟩ := hsa
  · obtain ⟨rfl, -⟩ | ⟨rfl, -⟩ := hsa'
    · rfl
    · exact absurd hid (by decide)
  · obtain ⟨rfl, -⟩ | ⟨rfl, -⟩ := hsa'
    · exact absurd hid (by decide)
    · rfl

/-- A service account with a private key that is not its own sends with the token of the account it
names. -/
theorem a_wrong_private_key_sends :
    ∃ events t, Run (step {} (fun parts ↦ parts) fun r ↦ r.secret = .privateKey "k") free {} events t ∧
      ¬ Isolated {} (fun r ↦ r.secret = .privateKey "k") t := by
  have hsends : ∃ events t, Run (step {} (fun parts ↦ parts) fun r ↦ r.secret = .privateKey "k")
      (fun _ _ _ ↦ True) {} events t ∧
      (Config.serviceAccount ⟨"a@p", some "1", "l"⟩ "m@a",
        (⟨"", .assertion "a@p" "m@a" (some "1") "k"⟩ : Token)) ∈ t.sent :=
    exists_run_of_sameKey (c := .serviceAccount ⟨"a@p", some "1", "k"⟩ "m@a") (fun _ ↦ True)
      trivial trivial rfl (by decide) rfl rfl
  obtain ⟨events, t, hrun, hsent⟩ := hsends
  refine ⟨events, t, hrun.forget, fun h ↦ ?_⟩
  obtain ⟨own, hown, hvalid, -⟩ := h _ hsent
  obtain rfl := Option.some.inj hown
  exact absurd hvalid (by decide)

end

end Shellius.Email
