import Shellius.Policy.Evaluate

/-!
# JIT accounts

The part of `jitManifestService` that access requests use: the name of the Linux
account a host creates for a user, and the policy that asks for one.
-/

namespace Shellius

open Lib

/-! ## Account names -/

/-- One character of `toLowerCase`, up to characters outside `[a-z0-9]`, which
are all replaced by the same underscore afterwards.  Only the Kelvin sign and
the dotted capital I have a lower case that reaches back into the alphabet. -/
def lowerChar (c : Char) : List Char :=
  if c = '\u212a' then ['k']
  else if c = '\u0130' then ['i', '\u0307']
  else [c.toLower]

/-- `[a-z0-9]` -/
def isLowerAlnum (c : Char) : Bool := ('a' ≤ c && c ≤ 'z') || ('0' ≤ c && c ≤ '9')

/-- `replace(/[^a-z0-9]+/g, '_')`; the flag says that the run at hand has its
underscore already. -/
def underscoreRuns : Bool → List Char → List Char
  | _, [] => []
  | inRun, c :: cs =>
    if isLowerAlnum c then c :: underscoreRuns false cs
    else if inRun then underscoreRuns true cs
    else '_' :: underscoreRuns true cs

/-- `replace(/^_+|_+$/g, '')` -/
def trimUnderscores (cs : List Char) : List Char :=
  (((cs.dropWhile fun c ↦ c = '_').reverse).dropWhile fun c ↦ c = '_').reverse

def sanitizedBase (user : User) : String :=
  let raw := ([user.email, user.name, user.id].find? fun s ↦ s ≠ "").getD ""
  let cs := raw.toList.flatMap lowerChar
  let cleaned := trimUnderscores (underscoreRuns false (cs.takeWhile fun c ↦ c ≠ '@'))
  String.ofList ((if cleaned = [] then "shellius".toList else cleaned).take 24)

def jitPrincipalFor (user : User) : String := sanitizedBase user ++ "_jit"

/-! ## The policy that provisions -/

def hasJitConfig (os : OsProvisioning) : Bool :=
  os.linuxGroups ≠ [] || os.sudo || os.aclReadPaths ≠ [] || os.hardCutoff

/-- `findJitPolicyForUserServer`: the provisioning ALLOW policy of least priority
number that names the user and targets the server. -/
def findJitPolicyForUserServer (db : Database) (orgId userId serverId : Id) :
    Option AccessPolicy :=
  let userGroupIds := resolveUserGroupIds db userId orgId
  let roleKeys := (loadSubject db userId orgId).roleKeys
  let policies := sortOn AccessPolicy.priority (db.accessPolicies.filter fun p ↦
    concerns orgId userId userGroupIds roleKeys p ∧ p.effect = .allow)
  let relevant := policies.filter fun p ↦
    (p.targetServerIds = [] ∨ serverId ∈ p.targetServerIds) ∧
      (p.targetEnvironments = [] ∨
        ∀ server ∈ db.server orgId serverId, server.environment ∈ p.targetEnvironments)
  relevant.find? fun p ↦ hasJitConfig p.osProvisioning

end Shellius
