import Mathlib.Data.List.Basic
import Mathlib.Data.String.Basic

/-!
# Paths that no API token reaches

`apiTokenAuth` refuses a request for one of `FORBIDDEN_PREFIXES` before it looks the token up.
It compares the request target as it was sent, up to the query.  The router finds its way by
the pathname that `parseurl` makes of the target, and knows no difference between capital and
small letters.

So the two agree on a target that begins with a mount path as it is written in the list.  They
part where a capital letter stands in it, where a scheme and a host stand before it, and where
a fragment follows it.
-/

namespace Shellius.Auth

/-! ## The router -/

/-- Backslashes before the query or the fragment are slashes to `url.parse`. -/
def slashes : List Char → List Char
  | [] => []
  | c :: cs => if c = '?' ∨ c = '#' then c :: cs else (if c = '\\' then '/' else c) :: slashes cs

def isSchemeChar (c : Char) : Bool := c.isAlphanum || c = '.' || c = '+' || c = '-'

/-- What follows `scheme://`. -/
def afterScheme (cs : List Char) : Option (List Char) :=
  match cs.takeWhile isSchemeChar, cs.dropWhile isSchemeChar with
  | _ :: _, ':' :: '/' :: '/' :: rest => some rest
  | _, _ => none

/-- What follows `//`, if a user and a host come first. -/
def afterUserInfo : List Char → Option (List Char)
  | '/' :: '/' :: rest =>
    let isPart := fun c ↦ c ≠ '@' ∧ c ≠ '/'
    match rest.takeWhile isPart, rest.dropWhile isPart with
    | _ :: _, '@' :: c :: _ => if isPart c then some rest else none
    | _, _ => none
  | _ => none

/-- The text up to the query or the fragment. -/
def beforeQuery (cs : List Char) : List Char := cs.takeWhile fun c ↦ c ≠ '?' ∧ c ≠ '#'

/-- The host ends where the path, the query or the fragment begins. -/
def afterHost (cs : List Char) : List Char := cs.dropWhile fun c ↦ c ≠ '/' ∧ c ≠ '?' ∧ c ≠ '#'

/-- The path after a host, which is `/` if there is none. -/
def hostPath (cs : List Char) : List Char :=
  if beforeQuery (afterHost cs) = [] then ['/'] else beforeQuery (afterHost cs)

/-- `parseurl(req).pathname`, for a target in origin form or in absolute form. -/
def pathname (target : String) : Option (List Char) :=
  let cs := target.toList
  if cs.head? = some '/' then
    if '#' ∈ cs then
      match afterUserInfo (slashes cs) with
      | some rest => some (hostPath rest)
      | none => some (beforeQuery (slashes cs))
    else some (beforeQuery cs)
  else (afterScheme (slashes cs)).map hostPath

/-- `^mount\/?(?=\/|$)` with the flag `i`. -/
def mountMatches (mount : String) (path : List Char) : Bool :=
  (path.take mount.toList.length).map Char.toLower = mount.toList.map Char.toLower ∧
    ((path.drop mount.toList.length).head?.all (· = '/'))

/-- The mount paths of `app.js`. -/
def mounts : List String :=
  ["/api/chat/slack", "/api/auth/sso/saml", "/api", "/api/auth", "/api/auth/sso", "/api/auth/device",
    "/api/users", "/api/groups", "/api/roles", "/api/tokens", "/api/service-accounts",
    "/api/settings/audit-sinks", "/api/settings/directory-sync", "/api/settings/chat",
    "/api/chat/identities", "/api/vault", "/api/customers", "/api/servers", "/api/certificates",
    "/api/ca", "/api/policies", "/api/access-requests", "/api/notifications", "/api/sessions",
    "/api/audit", "/api/bootstrap", "/api/hosts", "/api/posture", "/api/updates/helper",
    "/api/updates", "/api/org", "/api/settings/smtp", "/api/settings/email", "/api/settings/storage",
    "/api/approvals", "/api/import", "/api/mfa", "/api/settings/mfa", "/api/cli", "/api/keystore",
    "/api/quick-connect", "/api/search", "/api/lookup", "/api/terminal"]

/-! ## The guard -/

/-- `FORBIDDEN_PREFIXES` -/
def forbiddenPrefixes : List String :=
  ["/api/auth", "/api/mfa", "/api/settings/mfa", "/api/auth/sso", "/api/vault", "/api/terminal",
    "/api/tokens", "/api/service-accounts"]

/-- `ALLOWED_EXACT` -/
def allowedExact : List (String × String) := [("GET", "/api/auth/me")]

def pathOf (target : String) : List Char := target.toList.takeWhile (· ≠ '?')

/-- `path === p || path.startsWith(p + '/')` -/
def isUnder (p : String) (path : List Char) : Bool :=
  path = p.toList ∨ (p.toList ++ ['/']).isPrefixOf path

def isForbiddenPath (method target : String) : Bool :=
  if allowedExact.any fun a ↦ a.1 = method ∧ a.2.toList = pathOf target then false
  else forbiddenPrefixes.any fun p ↦ isUnder p (pathOf target)

/-! ## Whom the guard stops -/

def isForbiddenMount (mount : String) : Bool :=
  forbiddenPrefixes.any fun p ↦ isUnder p mount.toList

/-- The request comes to a router that is mounted under a forbidden prefix. -/
def reachesForbidden (target : String) : Bool :=
  mounts.any fun mount ↦ isForbiddenMount mount ∧ (pathname target).any (mountMatches mount)

/-- The request is for `GET /api/auth/me`, in any spelling that the router takes for it. -/
def isWhoami (method target : String) : Bool :=
  method = "GET" ∧ (pathname target).any fun path ↦
    path.map Char.toLower = "/api/auth/me".toList ∨ path.map Char.toLower = "/api/auth/me/".toList

/-- The target begins with a forbidden prefix as the list has it, and a path, a query or nothing
follows. -/
def isSpelledOut (target : String) : Bool :=
  forbiddenPrefixes.any fun p ↦ p.toList.isPrefixOf target.toList ∧
    (target.toList.drop p.toList.length).head?.all fun c ↦ c = '/' ∨ c = '?'

variable {method target : String}

/-- A request that comes to a router under a forbidden prefix is refused, but for `GET /api/auth/me`. -/
def Guarded (method target : String) : Prop :=
  reachesForbidden target = true → isWhoami method target = false → isForbiddenPath method target = true

theorem isUnder_iff {p : String} {path : List Char} :
    isUnder p path = true ↔ ∃ t, path = p.toList ++ t ∧ ∀ c ∈ t.head?, c = '/' := by
  rw [isUnder, decide_eq_true_eq]
  constructor
  · rintro (rfl | h)
    · exact ⟨[], (List.append_nil _).symm, fun c hc ↦ by cases hc⟩
    · obtain ⟨t, rfl⟩ := List.isPrefixOf_iff_prefix.mp h
      refine ⟨'/' :: t, by simp, ?_⟩
      rintro _ ⟨⟩
      rfl
  · rintro ⟨t, rfl, ht⟩
    cases t with
    | nil => exact .inl (List.append_nil _)
    | cons c t =>
      obtain rfl := ht c rfl
      exact .inr (List.isPrefixOf_iff_prefix.mpr ⟨t, by simp⟩)

theorem isUnder_pathOf {p : String} (hp : '?' ∉ p.toList) :
    isUnder p (pathOf target) = true ↔
      ∃ t, target.toList = p.toList ++ t ∧ ∀ c ∈ t.head?, c = '/' ∨ c = '?' := by
  have hkept : ∀ c ∈ p.toList, decide (c ≠ '?') = true := by
    intro c hc
    refine decide_eq_true ?_
    rintro rfl
    exact hp hc
  rw [isUnder_iff, pathOf]
  constructor
  · rintro ⟨t, ht, hhead⟩
    refine ⟨t ++ target.toList.dropWhile (· ≠ '?'), ?_, ?_⟩
    · rw [← List.append_assoc, ← ht, List.takeWhile_append_dropWhile]
    · intro c hc
      cases t with
      | nil =>
        have hnot := List.head?_dropWhile_not (fun c : Char ↦ decide (c ≠ '?')) target.toList
        have hc : (target.toList.dropWhile fun c ↦ decide (c ≠ '?')).head? = some c := hc
        rw [hc] at hnot
        exact .inr (by simpa using hnot)
      | cons d t => exact .inl (hhead c hc)
  · rintro ⟨t, ht, hhead⟩
    rw [ht, List.takeWhile_append_of_pos hkept]
    refine ⟨t.takeWhile (· ≠ '?'), rfl, ?_⟩
    intro c hc
    cases t with
    | nil => cases hc
    | cons d t =>
      obtain rfl | rfl := hhead d rfl
      · obtain rfl : '/' = c := by simpa using hc
        rfl
      · cases hc

theorem noQuery_forbiddenPrefixes : ∀ p ∈ forbiddenPrefixes, '?' ∉ p.toList := by decide +kernel

theorem isSpelledOut_iff : isSpelledOut target = true ↔
    ∃ p ∈ forbiddenPrefixes, ∃ t, target.toList = p.toList ++ t ∧ ∀ c ∈ t.head?, c = '/' ∨ c = '?' := by
  rw [isSpelledOut, List.any_eq_true]
  refine exists_congr fun p ↦ and_congr_right fun _ ↦ ?_
  rw [decide_eq_true_eq, List.isPrefixOf_iff_prefix]
  constructor
  · rintro ⟨⟨t, ht⟩, hhead⟩
    rw [← ht, List.drop_left] at hhead
    exact ⟨t, ht.symm, fun c hc ↦ by simpa [Option.mem_def.mp hc] using hhead⟩
  · rintro ⟨t, ht, hhead⟩
    refine ⟨⟨t, ht.symm⟩, ?_⟩
    rw [ht, List.drop_left, Option.all_eq_true]
    exact fun c hc ↦ decide_eq_true (hhead c hc)

theorem isSpelledOut_eq_any :
    isSpelledOut target = forbiddenPrefixes.any fun p ↦ isUnder p (pathOf target) := by
  rw [Bool.eq_iff_iff, isSpelledOut_iff, List.any_eq_true]
  exact exists_congr fun p ↦ and_congr_right fun hp ↦
    (isUnder_pathOf (noQuery_forbiddenPrefixes p hp)).symm

theorem pathname_whoami {t : List Char} (ht : target.toList = "/api/auth/me".toList ++ t)
    (hhead : ∀ c ∈ t.head?, c = '?') : pathname target = some "/api/auth/me".toList := by
  have hslashes : ∀ t, slashes ("/api/auth/me".toList ++ t) = "/api/auth/me".toList ++ slashes t :=
    fun _ ↦ rfl
  have huser : ∀ t, afterUserInfo ("/api/auth/me".toList ++ t) = none := fun _ ↦ rfl
  have hbefore : ∀ t,
      beforeQuery ("/api/auth/me".toList ++ t) = "/api/auth/me".toList ++ beforeQuery t :=
    fun _ ↦ rfl
  have hfirst : ("/api/auth/me".toList ++ t).head? = some '/' := rfl
  have hnone : beforeQuery t = [] ∧ beforeQuery (slashes t) = [] := by
    cases t with
    | nil => exact ⟨rfl, rfl⟩
    | cons c t =>
      obtain rfl := hhead c rfl
      exact ⟨rfl, rfl⟩
  unfold pathname
  dsimp only
  rw [ht, if_pos hfirst, hslashes, huser, hbefore, hbefore, hnone.1, hnone.2, List.append_nil, ite_self]

/-- What the guard lets through by its exception is `GET /api/auth/me`. -/
theorem isWhoami_of_allowed
    (h : allowedExact.any (fun a ↦ a.1 = method ∧ a.2.toList = pathOf target) = true) :
    isWhoami method target = true := by
  obtain ⟨a, ha, hok⟩ := List.any_eq_true.mp h
  obtain rfl := List.mem_singleton.mp ha
  obtain ⟨rfl, hpath⟩ := of_decide_eq_true hok
  have htarget : target.toList = "/api/auth/me".toList ++ target.toList.dropWhile (· ≠ '?') := by
    rw [hpath, pathOf, List.takeWhile_append_dropWhile]
  have hhead : ∀ c ∈ (target.toList.dropWhile (· ≠ '?')).head?, c = '?' := by
    intro c hc
    have hnot := List.head?_dropWhile_not (fun c : Char ↦ decide (c ≠ '?')) target.toList
    rw [Option.mem_def.mp hc] at hnot
    simpa using hnot
  rw [isWhoami, pathname_whoami htarget hhead]
  decide +kernel

/-- **The guard stops every request for a forbidden router that spells its mount path out, and no
other.** -/
theorem guarded_iff : Guarded method target ↔
    (reachesForbidden target = true → isWhoami method target = true ∨ isSpelledOut target = true) := by
  have hforbidden : isWhoami method target = false →
      (isForbiddenPath method target = true ↔ isSpelledOut target = true) := by
    intro hwhoami
    have hallowed : ¬ allowedExact.any (fun a ↦ a.1 = method ∧ a.2.toList = pathOf target) = true :=
      fun h ↦ Bool.false_ne_true (hwhoami.symm.trans (isWhoami_of_allowed h))
    rw [isForbiddenPath, if_neg hallowed, isSpelledOut_eq_any]
  constructor
  · intro h hreach
    cases hwhoami : isWhoami method target with
    | true => exact .inl rfl
    | false => exact .inr ((hforbidden hwhoami).mp (h hreach hwhoami))
  · intro h hreach hwhoami
    obtain hyes | hspelled := h hreach
    · exact absurd (hwhoami.symm.trans hyes) Bool.false_ne_true
    · exact (hforbidden hwhoami).mpr hspelled

instance (method target : String) : Decidable (Guarded method target) :=
  inferInstanceAs (Decidable (_ → _ → _))

/-- A token gets past the guard to mint another: with a capital letter, with a scheme and a host, or
with a fragment. -/
theorem tokens_reached : ¬ Guarded "POST" "/api/Tokens" ∧
    ¬ Guarded "POST" "http://shellius.local/api/tokens" ∧ ¬ Guarded "POST" "/api/tokens#" := by
  decide +kernel

end Shellius.Auth
