import Shellius.Access.Certificate
import Shellius.Lib.Words

/-!
# The names of JIT accounts

A host logs a user in under the name `jitPrincipalFor` makes of the mailbox of
the user's address.  Seen through the words of the mailbox, the stretches of
letters and digits, the name is these words joined by underscores, cut after 24
characters and closed by `_jit`.  So the name always has the right length and
the right characters; what can go wrong is a digit in front, and two mailboxes
whose words read the same that far.
-/

namespace Shellius

open Lib

/-- `[a-z]` -/
def isLowerAlpha (c : Char) : Bool := 'a' ≤ c && c ≤ 'z'

/-- `[0-9]` -/
def isDigitChar (c : Char) : Bool := '0' ≤ c && c ≤ '9'

/-! ## The words of a mailbox -/

/-- The lower-cased part of the address before the `@`; the name or the id of
the user where there is no address. -/
def mailbox (user : User) : List Char :=
  ((([user.email, user.name, user.id].find? fun s ↦ s ≠ "").getD "").toList.flatMap
    lowerChar).takeWhile fun c ↦ c ≠ '@'

/-- The stretches of letters and digits of the mailbox. -/
def mailboxWords (user : User) : List (List Char) := words isLowerAlnum (mailbox user)

/-- What an account is named after: the words joined by underscores, or
`shellius` where there are none. -/
def accountStem (user : User) : List Char :=
  if mailboxWords user = [] then "shellius".toList else ['_'].intercalate (mailboxWords user)

def startsWithDigit (user : User) : Bool := ((mailboxWords user).flatten.head?).any isDigitChar

theorem isLowerAlnum_eq (c : Char) : isLowerAlnum c = (isLowerAlpha c || isDigitChar c) := rfl

theorem not_isLowerAlpha_of_isDigitChar {c : Char} (h : isDigitChar c = true) :
    isLowerAlpha c = false := by
  simp only [isDigitChar, isLowerAlpha, Bool.and_eq_true, decide_eq_true_eq, Bool.and_eq_false_iff,
    decide_eq_false_iff_not] at h ⊢
  exact .inl fun ha ↦ absurd (Char.le_trans ha h.2) (by decide)

theorem underscoreRuns_eq (inRun : Bool) (cs : List Char) :
    underscoreRuns inRun cs = squeeze isLowerAlnum '_' inRun cs := by
  induction cs generalizing inRun with
  | nil => rfl
  | cons c cs ih => simp only [underscoreRuns, squeeze, ih]

theorem trimUnderscores_eq (cs : List Char) : trimUnderscores cs = Lib.trim '_' cs := rfl

theorem toList_sanitizedBase (user : User) :
    (sanitizedBase user).toList = (accountStem user).take 24 := by
  have hclean : trimUnderscores (underscoreRuns false (mailbox user)) =
      ['_'].intercalate (mailboxWords user) := by
    rw [trimUnderscores_eq, underscoreRuns_eq]
    exact trim_squeeze (by decide) (mailbox user)
  have hnil : (['_'].intercalate (mailboxWords user) = []) ↔ mailboxWords user = [] :=
    intercalate_eq_nil fun _ ↦ ne_nil_of_mem_words
  have hbase : (sanitizedBase user).toList =
      (if trimUnderscores (underscoreRuns false (mailbox user)) = [] then "shellius".toList
        else trimUnderscores (underscoreRuns false (mailbox user))).take 24 := by
    rw [sanitizedBase, String.toList_ofList]
    rfl
  rw [hbase, hclean, accountStem]
  simp only [hnil]

theorem toList_jitPrincipalFor (user : User) :
    (jitPrincipalFor user).toList = (accountStem user).take 24 ++ "_jit".toList := by
  rw [jitPrincipalFor, String.toList_append, toList_sanitizedBase]

theorem accountStem_eq_cons (user : User) :
    ∃ c cs, accountStem user = c :: cs ∧ isDigitChar c = startsWithDigit user ∧
      isLowerAlnum c = true ∧ ∀ d ∈ cs, isLowerAlnum d = true ∨ d = '_' := by
  have hkeep : ∀ w ∈ mailboxWords user, ∀ a ∈ w, isLowerAlnum a = true :=
    fun _ hw ↦ keep_of_mem_words hw
  have hne : ∀ w ∈ mailboxWords user, w ≠ [] := fun _ hw ↦ ne_nil_of_mem_words hw
  unfold accountStem startsWithDigit
  cases hw : mailboxWords user with
  | nil =>
    have hall : ['h', 'e', 'l', 'l', 'i', 'u', 's'].all isLowerAlnum = true := rfl
    have hname : "shellius".toList = ['s', 'h', 'e', 'l', 'l', 'i', 'u', 's'] := rfl
    refine ⟨'s', ['h', 'e', 'l', 'l', 'i', 'u', 's'], ?_, rfl, rfl,
      fun d hd ↦ .inl (List.all_eq_true.mp hall d hd)⟩
    rw [if_pos rfl, hname]
  | cons w ws =>
    rw [hw] at hkeep hne
    obtain ⟨c, cs, rfl⟩ := List.exists_cons_of_ne_nil (hne w (by simp))
    rw [if_neg (by simp)]
    have hc : isLowerAlnum c = true := hkeep (c :: cs) (by simp) c (by simp)
    refine ⟨c, headed '_' cs ws, ?_, by simp, hc, ?_⟩
    · rw [intercalate_cons, headed_cons]
    · intro d hd
      rw [← intercalate_cons] at hd
      obtain rfl | ⟨v, hv, hdv⟩ := mem_intercalate hd
      · exact .inr rfl
      · obtain rfl | hv := List.mem_cons.mp hv
        · exact .inl (hkeep (c :: v) (by simp) d (List.mem_cons_of_mem c hdv))
        · exact .inl (hkeep v (by simp [hv]) d hdv)

theorem isLinuxUser_jitPrincipalFor (user : User) :
    isLinuxUser (jitPrincipalFor user) = !startsWithDigit user := by
  obtain ⟨c, cs, hstem, hdigit, hc, hcs⟩ := accountStem_eq_cons user
  have hname : (jitPrincipalFor user).toList = c :: (cs.take 23 ++ "_jit".toList) := by
    rw [toList_jitPrincipalFor, hstem]; rfl
  have hall : (cs.take 23 ++ "_jit".toList).all (fun c ↦ isLowerAlnum c || c = '_' || c = '-') =
      true := by
    rw [List.all_append, Bool.and_eq_true]
    refine ⟨List.all_eq_true.mpr fun d hd ↦ ?_, by decide⟩
    obtain h | rfl := hcs d (List.mem_of_mem_take hd)
    · rw [h]; rfl
    · rfl
  have hlen : (cs.take 23 ++ "_jit".toList).length ≤ 31 := by
    rw [List.length_append, List.length_take]
    have : ("_jit".toList).length = 4 := by decide
    omega
  have hfirst : (('a' ≤ c && c ≤ 'z') || c = '_' : Bool) = !startsWithDigit user := by
    change (isLowerAlpha c || decide (c = '_')) = !startsWithDigit user
    rw [← hdigit]
    rw [isLowerAlnum_eq, Bool.or_eq_true] at hc
    obtain hc | hc := hc
    · have : isDigitChar c = false := by
        by_contra hd
        rw [not_isLowerAlpha_of_isDigitChar (by simpa using hd)] at hc
        cases hc
      rw [hc, this]; rfl
    · have hne : decide (c = '_') = false := by
        rw [decide_eq_false_iff_not]; rintro rfl; revert hc; decide
      rw [not_isLowerAlpha_of_isDigitChar hc, hc, hne]; rfl
  rw [isLinuxUser, hname]
  simp only [hfirst, hall, hlen, decide_true, Bool.and_true]

theorem jitPrincipalFor_eq_iff (user other : User) :
    jitPrincipalFor user = jitPrincipalFor other ↔
      (accountStem user).take 24 = (accountStem other).take 24 := by
  rw [← String.toList_inj, toList_jitPrincipalFor, toList_jitPrincipalFor, List.append_left_inj]

/-! ## The users of an organization -/

/-- Every user of the organization gets a valid account name, and no two users
get the same one. -/
structure JitNamesSound (db : Database) (orgId : Id) : Prop where
  valid : ∀ u ∈ db.users, u.orgId = orgId → isLinuxUser (jitPrincipalFor u) = true
  distinct : ∀ u ∈ db.users, ∀ v ∈ db.users, u.orgId = orgId → v.orgId = orgId → u.id ≠ v.id →
    jitPrincipalFor u ≠ jitPrincipalFor v

/-- No mailbox of the organization begins with a digit, and the words of any two
mailboxes, joined by underscores, differ in the first 24 characters. -/
structure MailboxesApart (db : Database) (orgId : Id) : Prop where
  letterFirst : ∀ u ∈ db.users, u.orgId = orgId → startsWithDigit u = false
  stemsDiffer : ∀ u ∈ db.users, ∀ v ∈ db.users, u.orgId = orgId → v.orgId = orgId → u.id ≠ v.id →
    (accountStem u).take 24 ≠ (accountStem v).take 24

/-- JIT account names are sound exactly where the mailboxes are apart. -/
theorem jitNamesSound_iff (db : Database) (orgId : Id) :
    JitNamesSound db orgId ↔ MailboxesApart db orgId := by
  constructor
  · rintro ⟨hvalid, hdistinct⟩
    refine ⟨fun u hu ho ↦ ?_, fun u hu v hv ho ho' hne heq ↦ ?_⟩
    · simpa [isLinuxUser_jitPrincipalFor] using hvalid u hu ho
    · exact hdistinct u hu v hv ho ho' hne ((jitPrincipalFor_eq_iff u v).mpr heq)
  · rintro ⟨hletter, hstems⟩
    refine ⟨fun u hu ho ↦ ?_, fun u hu v hv ho ho' hne heq ↦ ?_⟩
    · simp [isLinuxUser_jitPrincipalFor, hletter u hu ho]
    · exact hstems u hu v hv ho ho' hne ((jitPrincipalFor_eq_iff u v).mp heq)

theorem noServer_truthy : ∀ s ∈ ([] : List Server), s.id ≠ "" :=
  fun _ hs ↦ absurd hs List.not_mem_nil

def mailboxDb : Database where
  users := [
    { id := "u1", orgId := "o1", email := "1ana@acme.io", name := "Ana" },
    { id := "u2", orgId := "o1", email := "li.wei@acme.io", name := "Li Wei" },
    { id := "u3", orgId := "o1", email := "li-wei@acme.io", name := "Li Wei" },
    { id := "u4", orgId := "o1", email := "bob@acme.io", name := "Bob" }]
  servers := []
  accessPolicies := []
  serverKey := List.nodup_nil
  serverTruthy := noServer_truthy
  policyKey := List.nodup_nil

/-- Ana's account has no valid name, and the two Li Weis share one account. -/
theorem mailboxDb_unsound :
    ¬ JitNamesSound mailboxDb "o1" ∧
      (∃ u ∈ mailboxDb.users, u.orgId = "o1" ∧ jitPrincipalFor u = "1ana_jit" ∧
        isLinuxUser (jitPrincipalFor u) = false) ∧
      ∃ u ∈ mailboxDb.users, ∃ v ∈ mailboxDb.users, u.orgId = "o1" ∧ v.orgId = "o1" ∧
        u.id ≠ v.id ∧ jitPrincipalFor u = "li_wei_jit" ∧ jitPrincipalFor v = "li_wei_jit" := by
  have hana : ∃ u ∈ mailboxDb.users, u.orgId = "o1" ∧ jitPrincipalFor u = "1ana_jit" ∧
      isLinuxUser (jitPrincipalFor u) = false := by decide
  refine ⟨fun h ↦ ?_, hana, by decide⟩
  obtain ⟨u, hu, ho, -, hbad⟩ := hana
  rw [h.valid u hu ho] at hbad
  cases hbad

end Shellius
