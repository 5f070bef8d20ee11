import Shellius.Import.Commit

/-!
# What an imported row means

A row names the subjects and the approver group of a policy by their names, and an overwrite is to
leave alone what the row does not mention.  `Faithful` says so of the tables before and after a row
is committed.

Three things stand in the way.  A group or a user that a policy names and that is not there is left
out.  A policy that is overwritten gets the default of every column that the row leaves out, and so
do the labels and the address of a server.  And a policy that was planned as new but is there by now
counts as imported as it stands.  `Plain` is the condition under which none of this matters.
-/

namespace Shellius.Import

open Lib Action

/-! ## Subjects -/

def subjectColumn : SubjectType → String
  | .group => "subjectGroups"
  | .role => "subjectRoles"
  | .user => "subjectUsers"

section

variable (env : Surroundings) (w : Working) (orgId : Id) (raw : Raw)

def subjectNames (kind : SubjectType) : List String := list env (raw.get (subjectColumn kind))

/-- The subject that a name stands for, among what the commit knows and what is in the tables. -/
def denotes : SubjectType → String → Option String
  | .group, name => groupNamed env w orgId name
  | .role, name => (resolveRole env.rules w.db.tenancy orgId name).map (·.key)
  | .user, name => userNamed w orgId (lowerText env name)

/-- The subjects of a kind are those that the row names, and every name stands for one. -/
def SaysSubjects (kind : SubjectType) (p : PolicyRow) : Prop :=
  (∀ name ∈ subjectNames env raw kind, ∃ id, denotes env w orgId kind name = some id ∧
    ⟨kind, id⟩ ∈ p.subjects) ∧
  ∀ id, ⟨kind, id⟩ ∈ p.subjects →
    ∃ name ∈ subjectNames env raw kind, denotes env w orgId kind name = some id

/-- The approver group is the one that the row names, if it names one. -/
def SaysApprover (p : PolicyRow) : Prop :=
  match text (raw.get "approverGroup") with
  | none => p.approverGroupId = none
  | some name => ∃ id, groupNamed env w orgId name = some id ∧ p.approverGroupId = some id

end

/-! ## Columns that are left out -/

/-- A policy has the columns of another that a row leaves out, apart from its subjects and its
approver group. -/
structure PolicyRow.Kept (raw : Raw) (p p' : PolicyRow) : Prop where
  description : raw.omits ["description"] → p'.description = p.description
  effect : raw.omits ["effect"] → p'.effect = p.effect
  targetEnvironments : raw.omits ["targetEnvironments"] →
    p'.targetEnvironments = p.targetEnvironments
  allowedPrincipals : raw.omits ["allowedPrincipals"] → p'.allowedPrincipals = p.allowedPrincipals
  maxSessionDuration : raw.omits ["maxSessionDuration"] →
    p'.maxSessionDuration = p.maxSessionDuration
  requireApproval : raw.omits ["requireApproval"] → p'.requireApproval = p.requireApproval
  autoApprove : raw.omits ["autoApprove"] → p'.autoApprove = p.autoApprove
  priority : raw.omits ["priority"] → p'.priority = p.priority
  allowKeyDownload : raw.omits ["allowKeyDownload"] → p'.allowKeyDownload = p.allowKeyDownload
  approverRoles : raw.omits ["approverRoles"] → p'.approverRoles = p.approverRoles
  others : p'.id = p.id ∧ p'.orgId = p.orgId ∧ p'.customerId = p.customerId ∧
    p'.targetLabels = p.targetLabels ∧ p'.targetServerIds = p.targetServerIds ∧
    p'.isActive = p.isActive ∧ p'.osProvisioning = p.osProvisioning ∧
    p'.isBreakGlass = p.isBreakGlass ∧ p'.approverUserIds = p.approverUserIds

/-- A server has the columns of another that a row leaves out. -/
structure ServerRow.Kept (raw : Raw) (s s' : ServerRow) : Prop where
  ipAddress : raw.omits addressColumns → s'.ipAddress = s.ipAddress
  displayName : raw.omits ["displayName"] → s'.displayName = s.displayName
  description : raw.omits ["description"] → s'.description = s.description
  port : raw.omits ["port"] → s'.port = s.port
  protocol : raw.omits ["protocol"] → s'.protocol = s.protocol
  environment : raw.omits ["environment"] → s'.environment = s.environment
  labels : raw.omits ["labels"] → s'.labels = s.labels
  osType : raw.omits ["osType"] → s'.osType = s.osType
  osVersion : raw.omits ["osVersion"] → s'.osVersion = s.osVersion
  dynamicIp : raw.omits ["dynamicIp"] → s'.dynamicIp = s.dynamicIp
  sshUser : raw.omits ["sshUser"] → s'.sshUser = s.sshUser
  rdpUsername : raw.omits ["rdpUsername"] → s'.rdpUsername = s.rdpUsername
  rdpPassword : raw.omits ["rdpPasswordEnc"] → s'.rdpPasswordEncrypted = s.rdpPasswordEncrypted
  cloudProvider : raw.omits ["cloudProvider"] → s'.cloudProvider = s.cloudProvider
  cloudInstanceId : raw.omits ["cloudInstanceId"] → s'.cloudInstanceId = s.cloudInstanceId
  cloudRegion : raw.omits ["cloudRegion"] → s'.cloudRegion = s.cloudRegion
  others : s'.id = s.id ∧ s'.orgId = s.orgId ∧ s'.customerId = s.customerId ∧
    s'.hostname = s.hostname ∧ s'.isActive = s.isActive

structure CustomerRow.Kept (raw : Raw) (c c' : CustomerRow) : Prop where
  description : raw.omits ["description"] → c'.description = c.description
  others : c'.id = c.id ∧ c'.orgId = c.orgId ∧ c'.slug = c.slug

structure GroupRow.Kept (raw : Raw) (g g' : GroupRow) : Prop where
  description : raw.omits ["description"] → g'.description = g.description
  others : g'.id = g.id ∧ g'.orgId = g.orgId ∧ g'.name = g.name ∧ g'.accessScope = g.accessScope

def managerColumns : List String := ["manager", "managerEmail"]

/-- A user has what a row leaves out. -/
structure KeptUser (raw : Raw) (u u' : ScopedUser) : Prop where
  role : raw.omits ["role"] → u'.role = u.role ∧ u'.roleId = u.roleId
  manager : raw.omits managerColumns → u'.managerId = u.managerId
  others : { u' with
    name := u.name, role := u.role, roleId := u.roleId, managerId := u.managerId } = u

/-! ## The property -/

section

variable (env : Surroundings) (job : ImportJob) (row : ImportRow) (w w' : Working)

/-- The policy that is there already when a row comes to be committed. -/
def policyBefore : Option PolicyRow := w.db.policyNamed job.orgId (str (row.raw.get "name"))

structure KeptPolicy (p p' : PolicyRow) : Prop where
  columns : p.Kept row.raw p'
  subjects : ∀ kind, row.raw.omits [subjectColumn kind] →
    ∀ id, ⟨kind, id⟩ ∈ p'.subjects ↔ ⟨kind, id⟩ ∈ p.subjects
  approver : row.raw.omits ["approverGroup"] → p'.approverGroupId = p.approverGroupId

/-- Whether a column of a policy is for the row to say: all of them are, unless the row overwrites
a policy and leaves the column out. -/
def Says (column : String) : Prop :=
  row.overwrites → (policyBefore job row w).isSome → ¬ row.raw.omits [column]

/-- A policy has the subjects and the approver group that its row names. -/
structure SaysPolicy (p' : PolicyRow) : Prop where
  subjects : ∀ kind, Says job row w (subjectColumn kind) →
    SaysSubjects env w job.orgId row.raw kind p'
  approver : Says job row w "approverGroup" → SaysApprover env w job.orgId row.raw p'

/-- A row that was imported means what it says, and a row that overwrites a record leaves the
columns alone that it leaves out, however it ends. -/
def Faithful (imported : Prop) : Prop :=
  match row.entity with
  | .policy =>
    (imported → ∃ p', policyBefore job row w' = some p' ∧ SaysPolicy env job row w p') ∧
      (row.overwrites → ∀ p, policyBefore job row w = some p →
        ∃ p', w'.db.policies.find p.id = some p' ∧ KeptPolicy row p p')
  | .server => row.overwrites →
      ∀ s, w.db.serverNamed job.orgId (str (row.raw.get "hostname")) = some s →
        ∃ s', w'.db.servers.find s.id = some s' ∧ s.Kept row.raw s'
  | .customer => row.overwrites →
      ∀ c, w.db.customerOf job.orgId (truthy (some (lower env (row.raw.get "slug"))))
          (str (row.raw.get "name")) = some c →
        ∃ c', w'.db.customers.find c.id = some c' ∧ c.Kept row.raw c'
  | .group => row.overwrites →
      ∀ g, w.db.groupNamed job.orgId (str (row.raw.get "name")) = some g →
        ∃ g', w'.db.groups.find g.id = some g' ∧ g.Kept row.raw g'
  | .user => row.overwrites →
      ∀ u, w.db.userWithEmail job.orgId (lower env (row.raw.get "email")) = some u →
        ∃ u', w'.db.users.find u.id = some u' ∧ KeptUser row.raw u u'
  | .membership => True

/-! ## The condition -/

/-- Every name of a kind of subjects stands for one. -/
def AllDenote (kind : SubjectType) : Prop :=
  ∀ name ∈ subjectNames env row.raw kind, (denotes env w job.orgId kind name).isSome

/-- The approver group, if one is named, is there. -/
def ApproverDenotes : Prop :=
  ∀ name, text (row.raw.get "approverGroup") = some name → (groupNamed env w job.orgId name).isSome

/-- A policy that is overwritten has the defaults in the columns that the row leaves out. -/
structure Defaults (p : PolicyRow) : Prop where
  effect : row.raw.omits ["effect"] → effects.lookup (env.toUpperCase "ALLOW") = some p.effect
  targetEnvironments : row.raw.omits ["targetEnvironments"] → p.targetEnvironments = []
  allowedPrincipals : row.raw.omits ["allowedPrincipals"] → p.allowedPrincipals = []
  maxSessionDuration : row.raw.omits ["maxSessionDuration"] → p.maxSessionDuration = 3600
  requireApproval : row.raw.omits ["requireApproval"] → p.requireApproval = false
  autoApprove : row.raw.omits ["autoApprove"] → p.autoApprove = false
  priority : row.raw.omits ["priority"] → p.priority = 100
  allowKeyDownload : row.raw.omits ["allowKeyDownload"] → p.allowKeyDownload = false
  approverRoles : row.raw.omits ["approverRoles"] → p.approverRoles = []
  approver : row.raw.omits ["approverGroup"] → p.approverGroupId = none
  subjects : ∀ kind, row.raw.omits [subjectColumn kind] → ∀ id, ⟨kind, id⟩ ∉ p.subjects

/-- The condition for a policy row. -/
def PlainPolicy : Prop :=
  match policyBefore job row w with
  | none => (∀ kind, AllDenote env job row w kind) ∧ ApproverDenotes env job row w
  | some p =>
    if row.overwrites then
      (∀ kind, AllDenote env job row w kind) ∧ ApproverDenotes env job row w ∧ Defaults env row p
    else SaysPolicy env job row w p

/-- The condition for a row: the names of a policy are those of groups and users that are there,
and what is overwritten has the default where the row says nothing. -/
def Plain : Prop :=
  match row.entity with
  | .policy => PlainPolicy env job row w
  | .server => row.overwrites →
      ∀ s, w.db.serverNamed job.orgId (str (row.raw.get "hostname")) = some s →
        (row.raw.omits ["labels"] → s.labels = []) ∧ (row.raw.omits addressColumns → s.ipAddress = "")
  | _ => True

end

end Shellius.Import
