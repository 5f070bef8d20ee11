import Shellius.Policy.Rulings
import Shellius.QuickConnect.Tickets

/-!
# What the guards of Quick Connect keep out

Quick Connect should reach no production server and no server that a DENY policy keeps from
the user, whatever is typed in.  That is a matter of addresses, and the guards compare texts:
an address spelled in another way than a server's row or the resolver spells it is not
recognised, nor is a name looked up for a server that is not in production, and only twenty
of the rows that do match are held against the policies.

`Recognised` is what the guards do find.  A ticket that is issued and accepted keeps out of
the protected servers just when each request for the address of one is recognised.
-/

namespace Shellius.QuickConnect

open Lib

/-! ## Protected servers -/

def SavedServer.resolved (env : Services) (srv : SavedServer) : List String :=
  if srv.hostname = "" then []
  else if isIP srv.hostname ≠ 0 then [srv.hostname]
  else (env.dns srv.hostname).addresses

def Reaches (env : Services) (srv : SavedServer) (address : String) : Prop :=
  SameAddress srv.ipAddress address ∨ ∃ ip ∈ srv.resolved env, SameAddress ip address

/-- A DENY policy keeps a user from a server. -/
def Denies (db : Database) (user : Caller) (srv : SavedServer) : Prop :=
  applying db user.orgId user.userId srv.toServer none .deny ≠ []

/-- A server of the organization that Quick Connect must not reach for a user. -/
def Protected (s : Store) (user : Caller) (srv : SavedServer) : Prop :=
  srv ∈ s.servers ∧ srv.orgId = user.orgId ∧ (srv.environment = .prod ∨ Denies s.db user srv)

def KeptOut (env : Services) (s : Store) (user : Caller) (address : String) : Prop :=
  ∀ srv, Protected s user srv → ¬ Reaches env srv address

/-! ## What is recognised -/

/-- The texts of addresses that the first guard knows a production server by: the one in its
row, and what its name is found to resolve to, now or when it was last looked up. -/
def knownIps (env : Services) (now : Millis) (s : Store) (srv : SavedServer) : List String :=
  [srv.ipAddress].filter (· ≠ "") ++
    if srv.hostname = "" then []
    else if isIP srv.hostname ≠ 0 then [srv.hostname]
    else (resolveProdHostname env now s.prodDnsCache srv.hostname).1

/-- A production server is called what was typed in, or is known by the text of one of the
addresses. -/
def ProdRecognised (env : Services) (now : Millis) (s : Store) (orgId : Id) (host : String)
    (ips : List String) : Prop :=
  ∃ srv ∈ s.servers, srv.orgId = orgId ∧ srv.environment = .prod ∧
    (srv.isCalled env host ∨ ∃ ip ∈ knownIps env now s srv, ip ∈ ips)

def Recognised (env : Services) (now : Millis) (s : Store) (user : Caller) (target : Target) :
    Prop :=
  ProdRecognised env now s user.orgId target.hostname target.addresses ∨
    ∃ srv ∈ deniedCandidates env s user.orgId (target.hostname :: target.addresses),
      Denies s.db user srv

/-! ## The first guard -/

section

variable {env : Services} {now : Millis} {cache cache' : DnsCache} {h h' : String}

theorem resolveProdHostname_congr (he : cache h = cache' h) :
    (resolveProdHostname env now cache h).1 = (resolveProdHostname env now cache' h).1 := by
  unfold resolveProdHostname
  rw [he]
  cases cache' h with
  | none => rfl
  | some cached => by_cases hlive : now < cached.expires <;> simp [hlive]

theorem resolveProdHostname_of_ne (hne : h' ≠ h) :
    (resolveProdHostname env now cache h).2 h' = cache h' := by
  unfold resolveProdHostname
  cases cache h with
  | none => simp [hne]
  | some cached => by_cases hlive : now < cached.expires <;> simp [hlive, hne]

theorem lookup_resolveProdHostnames {hs : List String} (hmem : h ∈ hs) :
    (resolveProdHostnames env now cache hs).1.lookup h =
      some (resolveProdHostname env now cache h).1 := by
  induction hs generalizing cache with
  | nil => cases hmem
  | cons h' hs ih =>
    by_cases heq : h = h'
    · subst heq
      simp [resolveProdHostnames]
    · have htail : h ∈ hs := (List.mem_cons.mp hmem).resolve_left heq
      have hentry := @ih (resolveProdHostname env now cache h').2 htail
      rw [resolveProdHostname_congr (resolveProdHostname_of_ne heq)] at hentry
      have hb : (h == h') = false := by simpa using heq
      rw [resolveProdHostnames, List.lookup_cons, hb]
      exact hentry

theorem mem_prodHostnames {servers : List SavedServer} :
    h ∈ prodHostnames servers ↔ (∃ srv ∈ servers, srv.hostname = h) ∧ h ≠ "" ∧ isIP h = 0 := by
  simp [prodHostnames, List.mem_eraseDups]

variable {s : Store} {orgId : Id} {host : String} {ips : List String} {srv : SavedServer}

theorem mem_prodServers :
    srv ∈ prodServers s orgId ↔ srv ∈ s.servers ∧ srv.orgId = orgId ∧ srv.environment = .prod := by
  simp [prodServers]

theorem resolveHostname_eq (hmem : srv ∈ prodServers s orgId) (hname : srv.hostname ≠ "") :
    resolveHostname (resolveProdHostnames env now s.prodDnsCache
        (prodHostnames (prodServers s orgId))).1 srv.hostname =
      if isIP srv.hostname ≠ 0 then [srv.hostname]
      else (resolveProdHostname env now s.prodDnsCache srv.hostname).1 := by
  unfold resolveHostname
  by_cases hip : isIP srv.hostname = 0
  · have hlisted : srv.hostname ∈ prodHostnames (prodServers s orgId) :=
      mem_prodHostnames.mpr ⟨⟨srv, hmem, rfl⟩, hname, hip⟩
    rw [if_neg (not_not.mpr hip), if_neg (not_not.mpr hip), lookup_resolveProdHostnames hlisted,
      Option.getD_some]
  · rw [if_pos hip, if_pos hip]

theorem exists_knownIps :
    (∃ ip ∈ knownIps env now s srv, ip ∈ ips) ↔
      (srv.ipAddress ≠ "" ∧ srv.ipAddress ∈ ips) ∨ (srv.hostname ≠ "" ∧
        ∃ ip ∈ (if isIP srv.hostname ≠ 0 then [srv.hostname]
          else (resolveProdHostname env now s.prodDnsCache srv.hostname).1), ip ∈ ips) := by
  have hrow : (∃ ip ∈ [srv.ipAddress].filter (· ≠ ""), ip ∈ ips) ↔
      srv.ipAddress ≠ "" ∧ srv.ipAddress ∈ ips := by
    by_cases hip : srv.ipAddress = "" <;> simp [hip]
  by_cases hname : srv.hostname = ""
  · rw [knownIps, if_pos hname, List.append_nil, hrow]
    simp [hname]
  · rw [knownIps, if_neg hname, ← hrow]
    simp only [List.mem_append, or_and_right, exists_or, ne_eq, hname, not_false_eq_true, true_and]

/-- The first guard lets a target pass just when it recognises no production server. -/
theorem assertNotProdHost_eq_ok :
    (assertNotProdHost env now s orgId host ips).1 = .ok () ↔
      ¬ ProdRecognised env now s orgId host ips := by
  have hiff : ProdRecognised env now s orgId host ips ↔ ∃ srv ∈ prodServers s orgId,
      srv.isCalled env host ∨ ∃ ip ∈ knownIps env now s srv, ip ∈ ips := by
    simp only [ProdRecognised, mem_prodServers, and_assoc]
  rw [hiff]
  unfold assertNotProdHost
  simp only [List.any_eq_true, decide_eq_true_eq]
  split
  · rename_i hnone
    simp [hnone]
  split
  · rename_i hcalled
    obtain ⟨srv, hmem, hsrv⟩ := hcalled
    simp only [reduceCtorEq, false_iff, not_not]
    exact ⟨srv, hmem, .inl hsrv⟩
  rename_i hcalled
  split
  · rename_i hips
    simp only [true_iff]
    rintro ⟨srv, hmem, hsrv | ⟨ip, -, hip⟩⟩
    · exact hcalled ⟨srv, hmem, hsrv⟩
    · simp [hips] at hip
  split
  · rename_i hrow
    obtain ⟨srv, hmem, hsrv⟩ := hrow
    simp only [reduceCtorEq, false_iff, not_not]
    exact ⟨srv, hmem, .inr (exists_knownIps.mpr (.inl hsrv))⟩
  rename_i hrow
  split
  · rename_i hname
    obtain ⟨srv, hmem, hne, ip, hip, hin⟩ := hname
    rw [resolveHostname_eq hmem hne] at hip
    simp only [reduceCtorEq, false_iff, not_not]
    exact ⟨srv, hmem, .inr (exists_knownIps.mpr (.inr ⟨hne, ip, hip, hin⟩))⟩
  · rename_i hname
    simp only [true_iff]
    rintro ⟨srv, hmem, hsrv | hknown⟩
    · exact hcalled ⟨srv, hmem, hsrv⟩
    · obtain hip | ⟨hne, ip, hip, hin⟩ := exists_knownIps.mp hknown
      · exact hrow ⟨srv, hmem, hip⟩
      · rw [← resolveHostname_eq hmem hne] at hip
        exact hname ⟨srv, hmem, hne, ip, hip, hin⟩

end

/-! ## The second guard -/

section

variable {env : Services} {s : Store} {user : Caller} {srv : SavedServer} {l : List SavedServer}

theorem server_of_mem (hmem : srv ∈ s.servers) :
    s.db.server srv.orgId srv.id = some srv.toServer :=
  Database.server_of_mem (s.rows ▸ List.mem_map_of_mem hmem)

theorem Ruled.isDenial_iff {server : Server} {e : Evaluation}
    (htruthy : ∀ p ∈ s.db.accessPolicies, p.id ≠ "")
    (h : Ruled s.db user.orgId user.userId server none e) :
    isDenial e ↔ applying s.db user.orgId user.userId server none .deny ≠ [] := by
  cases h with
  | @denied p hp =>
    have hid : truthy (some p.id) ≠ none := by
      have hne := htruthy p hp.mem
      simp [truthy, hne]
    have hlead := List.ne_nil_of_mem (FirstMin.mem hp)
    simp only [isDenial, deniedBy, Option.getD_some, String.toList_append]
    simp [hid, hlead]
  | bypass hnone | governed hnone | unmatched hnone => simp [isDenial, hnone]

theorem checkDenied_eq_ok (hl : ∀ srv ∈ l, srv ∈ s.servers ∧ srv.orgId = user.orgId) :
    checkDenied s.db user.orgId user.userId l = .ok () ↔ ∀ srv ∈ l, ¬ Denies s.db user srv := by
  induction l with
  | nil => simp [checkDenied]
  | cons srv l ih =>
    obtain ⟨⟨hmem, horg⟩, hl⟩ := List.forall_mem_cons.mp hl
    have hrow : srv.toServer ∈ s.db.servers := s.rows ▸ List.mem_map_of_mem hmem
    have hserver : s.db.server user.orgId srv.id = some srv.toServer := horg ▸ server_of_mem hmem
    have heval : evaluate s.db { orgId := user.orgId, userId := user.userId, serverId := srv.id } =
        .ok (rulingOf s.db user.orgId user.userId srv.toServer none) :=
      evaluate_eq_rulingOf user.signedIn.1 user.signedIn.2 (s.db.serverTruthy _ hrow) hserver
    rw [checkDenied, heval, List.forall_mem_cons, ← ih hl]
    simp only [bind_eq_ok, require_eq_ok, Except.ok.injEq, exists_eq_left', exists_and_left,
      Ruled.isDenial_iff s.policyTruthy ruled_rulingOf]
    simp [Denies]

theorem mem_deniedCandidates {orgId : Id} {candidates : List String}
    (h : srv ∈ deniedCandidates env s orgId candidates) : srv ∈ s.servers ∧ srv.orgId = orgId := by
  have hrow := List.mem_filter.mp (List.mem_of_mem_take h)
  simp only [decide_eq_true_eq] at hrow
  exact ⟨hrow.1, hrow.2.1⟩

theorem assertNotDeniedHost_eq_ok {host : String} {ips : List String} :
    assertNotDeniedHost env s user.orgId user.userId host ips = .ok () ↔
      ∀ srv ∈ deniedCandidates env s user.orgId (host :: ips), ¬ Denies s.db user srv :=
  checkDenied_eq_ok fun _ h ↦ mem_deniedCandidates h

end

/-! ## Issuing and accepting -/

section

variable {env : Services} {now later : Millis} {s s₁ s₂ : Store} {user : Caller}
  {body : TicketBody} {via : Via} {personalHostId : Option Id} {ticket t : String}
  {userId orgId : Id} {chosen : Option String × AuthSpec} {target : Target} {text : String}
  {connect : Connect}

def Target.address (target : Target) : String :=
  (truthy (some target.ip)).getD target.hostname

theorem hostname_resolveTarget {host : String} (h : resolveTarget env host = .ok target) :
    target.hostname = host := by
  unfold resolveTarget at h
  split at h
  · cases h
  split at h
  · cases h
  · cases h
  · split at h
    · cases h
    · cases h
      rfl

def issued (env : Services) (now : Millis) (s : Store) (user : Caller) (target : Target)
    (ticket text : String) : Store :=
  { s with
    prodDnsCache :=
      (assertNotProdHost env now s user.orgId target.hostname target.addresses).2
    tickets := s.tickets.set (ticketKey ticket) text (some (now + ticketTtl)) }

theorem guards_eq_ok {p : Payload} {cache : DnsCache} :
    (do
      (assertNotProdHost env now s user.orgId target.hostname target.addresses).1
      assertNotDeniedHost env { s with prodDnsCache := cache } user.orgId user.userId
        target.hostname target.addresses
      env.encode p) = .ok text ↔
    ¬ Recognised env now s user target ∧ env.encode p = .ok text := by
  have hdenied : assertNotDeniedHost env { s with prodDnsCache := cache } user.orgId user.userId
        target.hostname target.addresses = .ok () ↔
      ∀ srv ∈ deniedCandidates env s user.orgId (target.hostname :: target.addresses),
        ¬ Denies s.db user srv :=
    assertNotDeniedHost_eq_ok
  simp only [bind_eq_ok, Recognised, not_or, and_assoc]
  constructor
  · rintro ⟨⟨⟩, hprod, ⟨⟩, hnot, henc⟩
    refine ⟨assertNotProdHost_eq_ok.mp hprod, ?_, henc⟩
    rintro ⟨srv, hmem, hden⟩
    exact hdenied.mp hnot srv hmem hden
  · rintro ⟨hprod, hnot, henc⟩
    refine ⟨⟨⟩, assertNotProdHost_eq_ok.mpr hprod, ⟨⟩, hdenied.mpr ?_, henc⟩
    intro srv hmem hden
    exact hnot ⟨srv, hmem, hden⟩

theorem createTicket_eq_ok :
    createTicket env now s user body via personalHostId ticket = (.ok t, s₁) ↔
      t = ticket ∧ ∃ chosen target text, checkRequest env s user body via = .ok chosen ∧
        resolveTarget env body.host = .ok target ∧ ¬ Recognised env now s user target ∧
        env.encode (payload user body via personalHostId chosen target) = .ok text ∧
        s₁ = issued env now s user target ticket text := by
  constructor
  · intro h
    unfold createTicket at h
    split at h
    · cases h
    rename_i chosen target hchecks
    simp only [bind_eq_ok, pure_eq_ok, Prod.mk.injEq] at hchecks
    obtain ⟨_, hcheck, _, hresolve, rfl, rfl⟩ := hchecks
    simp only [← hostname_resolveTarget hresolve] at h
    split at h
    · cases h
    · rename_i text hguards
      obtain ⟨hnot, henc⟩ := guards_eq_ok.mp hguards
      cases h
      exact ⟨rfl, _, _, text, hcheck, hresolve, hnot, henc, rfl⟩
  · rintro ⟨rfl, chosen, target, text, hcheck, hresolve, hnot, henc, rfl⟩
    have hchecks : (do
        let chosen ← checkRequest env s user body via
        let resolved ← resolveTarget env body.host
        pure (chosen, resolved)) = .ok (chosen, target) := by
      simp only [bind_eq_ok, pure_eq_ok, Prod.mk.injEq]
      exact ⟨chosen, hcheck, target, hresolve, rfl, rfl⟩
    unfold createTicket
    rw [hchecks]
    simp only [← hostname_resolveTarget hresolve]
    rw [guards_eq_ok.mpr ⟨hnot, henc⟩]
    rfl

/-- What a request that was checked is made out for can be redeemed. -/
theorem exists_redeem {p : Payload} (hcheck : checkRequest env s user body via = .ok chosen)
    (hauth : p.auth = chosen.2) (hids : s₁.identities = s.identities) :
    ∃ connect, redeem env s₁ user.userId user.orgId p = .ok connect := by
  simp only [checkRequest, bind_eq_ok] at hcheck
  obtain ⟨-, -, -, -, -, -, auth, -, hchoose⟩ := hcheck
  unfold redeem
  rw [hauth]
  split
  · exact ⟨_, rfl⟩
  split
  · exact ⟨_, rfl⟩
  split
  · rename_i hpassword hkey hcredential
    unfold chooseAuth at hchoose
    split at hchoose
    · simp only [bind_eq_ok, demand_eq_ok] at hchoose
      obtain ⟨cred, hfind, hchoose⟩ := hchoose
      have hsame : chosen.2 = auth := by
        split at hchoose <;>
          · simp only [bind_eq_ok, pure_eq_ok] at hchoose
            obtain ⟨-, -, rfl⟩ := hchoose
            rfl
      have hfind' : findUsableCredential s₁ user.orgId user.userId
          (chosen.2.credentialId.getD "") = some cred := by
        rw [hsame, findUsableCredential, hids]
        exact hfind
      rw [hfind']
      exact ⟨_, rfl⟩
    · rename_i htype
      simp only [bind_eq_ok] at hchoose
      obtain ⟨-, -, hchoose⟩ := hchoose
      have hsame : chosen.2.type = auth.type := by
        split at hchoose
        · simp only [bind_eq_ok, pure_eq_ok] at hchoose
          obtain ⟨_, -, rfl⟩ := hchoose
          rfl
        · simp only [pure_eq_ok] at hchoose
          subst hchoose
          rfl
      exact absurd (hsame ▸ hcredential) htype
  · exact ⟨_, rfl⟩

theorem host_redeem {p : Payload} (h : redeem env s userId orgId p = .ok connect) :
    connect.host = (truthy (some p.resolvedIp)).getD p.host := by
  unfold redeem at h
  split at h
  · cases h
    rfl
  split at h
  · cases h
    rfl
  split at h
  · split at h
    · cases h
    · cases h
      rfl
  · cases h
    rfl

theorem consumeTicket_issued (hticket : ticket ≠ "") {p : Payload}
    (henc : env.encode p = .ok text) :
    consumeTicket env later (issued env now s user target ticket text) ticket userId orgId =
        (.ok connect, s₂) ↔
      later < now + ticketTtl ∧ p.userId = userId ∧ p.orgId = orgId ∧
        redeem env s₂ userId orgId p = .ok connect ∧
        s₂ = { issued env now s user target ticket text with
          tickets := (issued env now s user target ticket text).tickets.del (ticketKey ticket) } := by
  have hget : (issued env now s user target ticket text).tickets.get later (ticketKey ticket) =
      if later < now + ticketTtl then some text else none := by
    simp [issued, Expiring.get, Entry.live]
  unfold consumeTicket
  rw [if_neg hticket, hget]
  by_cases hlater : later < now + ticketTtl
  · simp only [hlater, if_true, env.decode_encode henc, true_and]
    by_cases huser : p.userId = userId
    · by_cases horg : p.orgId = orgId
      · simp only [huser, horg, not_true_eq_false, or_self, if_false, Prod.mk.injEq, true_and,
          ne_eq]
        constructor
        · rintro ⟨h, rfl⟩
          exact ⟨h, rfl⟩
        · rintro ⟨h, rfl⟩
          exact ⟨h, rfl⟩
      · simp [horg]
    · simp [huser]
  · simp [hlater]

/-! ## The guards as a whole -/

/-- Each request for the address of a protected server is recognised, of those that pass the
checks and whose ticket is accepted. -/
def Covered (env : Services) (now later : Millis) (s : Store) (user : Caller) (body : TicketBody)
    (via : Via) (personalHostId : Option Id) (ticket : String) (userId orgId : Id) : Prop :=
  ∀ chosen target text, checkRequest env s user body via = .ok chosen →
    resolveTarget env body.host = .ok target →
    env.encode (payload user body via personalHostId chosen target) = .ok text →
    ticket ≠ "" → later < now + ticketTtl → user.userId = userId → user.orgId = orgId →
    (∃ srv, Protected s user srv ∧ Reaches env srv target.address) →
    Recognised env now s user target

/-- **Quick Connect keeps out of the protected servers just where the guards recognise
them.** -/
theorem ticket_keptOut_iff :
    (∀ t s₁ connect s₂,
      createTicket env now s user body via personalHostId ticket = (.ok t, s₁) →
      consumeTicket env later s₁ t userId orgId = (.ok connect, s₂) →
      KeptOut env s user connect.host) ↔
    Covered env now later s user body via personalHostId ticket userId orgId := by
  constructor
  · intro h chosen target text hcheck hresolve henc hticket hlater huser horg hreach
    subst huser horg
    by_contra hnot
    have hcreate := (createTicket_eq_ok (t := ticket)).mpr
      ⟨rfl, chosen, target, text, hcheck, hresolve, hnot, henc, rfl⟩
    obtain ⟨connect, hredeem⟩ : ∃ connect, redeem env
        { issued env now s user target ticket text with
          tickets := (issued env now s user target ticket text).tickets.del (ticketKey ticket) }
        user.userId user.orgId (payload user body via personalHostId chosen target) =
          .ok connect :=
      exists_redeem hcheck rfl rfl
    have hconsume := (consumeTicket_issued hticket henc).mpr ⟨hlater, rfl, rfl, hredeem, rfl⟩
    have hhost : connect.host = target.address := by
      rw [host_redeem hredeem, Target.address, hostname_resolveTarget hresolve]
      rfl
    obtain ⟨srv, hprotected, hsrv⟩ := hreach
    exact h _ _ _ _ hcreate hconsume srv hprotected (hhost ▸ hsrv)
  · rintro h t s₁ connect s₂ hcreate hconsume srv hprotected hreach
    obtain ⟨rfl, chosen, target, text, hcheck, hresolve, hnot, henc, rfl⟩ :=
      createTicket_eq_ok.mp hcreate
    have hticket : t ≠ "" := by
      rintro rfl
      cases hconsume
    obtain ⟨hlater, huser, horg, hredeem, -⟩ := (consumeTicket_issued hticket henc).mp hconsume
    have hhost : connect.host = target.address := by
      rw [host_redeem hredeem, Target.address, hostname_resolveTarget hresolve]
      rfl
    exact hnot (h chosen target text hcheck hresolve henc hticket hlater huser horg
      ⟨srv, hprotected, hhost ▸ hreach⟩)

/-! ### Another spelling -/

def database : SavedServer where
  id := "db-1"
  orgId := "org"
  customerId := "customer"
  environment := .prod
  hostname := "db-1"
  ipAddress := "2001:db8::a"

def oneServer : Store where
  db := { servers := [database.toServer], accessPolicies := [], policyKey := List.nodup_nil }
  servers := [database]

def member : Caller where
  orgId := "org"
  userId := "user"
  permissions := ["quick_connect.use"]

def upperCase : TicketBody where
  host := "2001:DB8::A"
  username := some "root"
  auth := some { type := "password", password := some "secret" }

def upperCaseTarget : Target := ⟨"2001:DB8::A", "2001:DB8::A", ["2001:DB8::A"]⟩

def upperCasePayload : Payload :=
  payload member upperCase .quickConnect none
    (some "root", { type := "password", password := some "secret" }) upperCaseTarget

def offline : Services where
  toLowerCase s := .ofList (s.toList.map Char.toLower)
  equalsInsensitive s t := s.toList.map Char.toLower = t.toList.map Char.toLower
  dns _ := ⟨.error "ENOTFOUND", 0⟩
  loopbackAllowed := false
  normalizePrivateKey key _ := .ok key
  decrypt s := s
  encode p := if p = upperCasePayload then .ok "v2:0:0" else .error ⟨500, "", none⟩
  decode text := if text = "v2:0:0" then some upperCasePayload else none
  decode_encode := by
    intro p text h
    split at h
    · cases h
      simp [*]
    · cases h

/-- The production server is reached under the other spelling of its address. -/
theorem production_reached :
    ¬ ∀ t s₁ connect s₂,
      createTicket offline 0 oneServer member upperCase .quickConnect none "9f" = (.ok t, s₁) →
      consumeTicket offline 1000 s₁ t "user" "org" = (.ok connect, s₂) →
      KeptOut offline oneServer member connect.host := by
  intro h
  refine h _ _ _ _ rfl rfl database ⟨?_, rfl, .inl rfl⟩ (.inl ?_)
  · exact List.mem_singleton.mpr rfl
  · decide +kernel

end

end Shellius.QuickConnect
