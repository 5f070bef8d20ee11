import Shellius.Policy.Rulings

/-!
# Evaluating many servers

`evaluateBulk` batches the queries of `evaluate` and takes its branches in
another order: DENY first, then the bypass, then the best ALLOW policy.  On each
server it gives the ruling of `evaluate` all the same.
-/

namespace Shellius

open Lib

variable {db : Database} {orgId userId : Id}

/-- What the loop of `evaluateBulk` computes for one server, with the loads it
shares between servers. -/
def bulkRuling (db : Database) (orgId userId : Id) (server : Server) : BulkEvaluation :=
  let subject := loadSubject db userId orgId
  evaluateBulkServer
    (loadMatchingPolicies db orgId userId (resolveUserGroupIds db userId orgId) subject.roleKeys)
    ("access.bypass_policies" ∈ subject.permissions)
    (canBypassProdApproval db orgId subject.permissions) server

theorem bulkRuling_eq (server : Server) :
    bulkRuling db orgId userId server =
      match findDeny (matchingPolicies db orgId userId server server.id none) with
      | some deny => ⟨false, false, server.environment = .prod,
          "Denied by policy " ++ deny.name, some deny.id⟩
      | none =>
        if mayBypass db orgId userId server then
          ⟨true, false, server.environment = .prod,
            if server.environment = .prod then "policy bypass (prod)" else "policy bypass", none⟩
        else
          match bestAllow (matchingPolicies db orgId userId server server.id none) with
          | none => ⟨false, false, server.environment = .prod, "No matching policy", none⟩
          | some best =>
            ⟨true, if server.environment = .prod then
                !canBypassProdApproval db orgId (loadSubject db userId orgId).permissions
              else best.requireApproval,
              server.environment = .prod, "Allowed by policy " ++ best.name, some best.id⟩ := by
  simp only [bulkRuling, evaluateBulkServer, matchingPolicies, mayBypass, decide_eq_true_eq]
  rfl

/-- A row of the list shows what evaluating its server alone would. -/
structure SameRuling (b : BulkEvaluation) (e : Evaluation) : Prop where
  allowed : b.allowed = e.allowed
  requiresApproval : b.requiresApproval = e.requiresApproval
  policyId : b.policyId = e.policyId

theorem bulkRuling_same (server : Server) :
    SameRuling (bulkRuling db orgId userId server) (rulingOf db orgId userId server none) := by
  cases hd : findDeny (matchingPolicies db orgId userId server server.id none) with
  | some d =>
    have hbulk : bulkRuling db orgId userId server = ⟨false, false,
        server.environment = .prod, "Denied by policy " ++ d.name, some d.id⟩ := by
      simp only [bulkRuling_eq, hd]
    have hone : rulingOf db orgId userId server none = deniedBy d := by
      -- the bypass branch of `evaluate` looks for a DENY too
      rw [rulingOf]
      split
      · simp only [evaluateBypass, hd]
      · simp only [evaluateOrgWide, hd]
    rw [hbulk, hone]
    exact ⟨rfl, rfl, rfl⟩
  | none =>
    by_cases hb : mayBypass db orgId userId server
    · rw [bulkRuling_eq, rulingOf, if_pos hb]
      simp only [evaluateBypass, hd, hb, if_true]
      exact ⟨rfl, rfl, rfl⟩
    · rw [bulkRuling_eq, rulingOf, if_neg hb]
      cases ha : bestAllow (matchingPolicies db orgId userId server server.id none) with
      | none => constructor <;> simp [evaluateOrgWide, hd, ha, hb]
      | some p => constructor <;> simp [evaluateOrgWide, hd, ha, hb]

/-- The servers a list of ids names, whatever else is in the list. -/
def requestedServers (db : Database) (orgId : Id) (serverIds : List (Option Id)) : List Server :=
  db.servers.filter fun s ↦ s.orgId = orgId ∧ s.id ∈ serverIds.eraseDups.filterMap truthy

theorem evaluateBulk_eq (serverIds : List (Option Id)) (ho : orgId ≠ "") (hu : userId ≠ "") :
    evaluateBulk db orgId userId serverIds =
      .ok ((requestedServers db orgId serverIds).map fun s ↦
        (s.id, bulkRuling db orgId userId s)) := by
  simp only [evaluateBulk, ho, hu, if_false]
  split
  · rename_i hids
    simp [requestedServers, hids]
  · split
    · rename_i hs
      rw [requestedServers, hs]; rfl
    · rfl

theorem mem_requestedServers {serverIds : List (Option Id)} {s : Server} :
    s ∈ requestedServers db orgId serverIds ↔
      some s.id ∈ serverIds ∧ db.server orgId s.id = some s := by
  have hid : s.id ∈ serverIds.eraseDups.filterMap truthy ↔ some s.id ∈ serverIds ∧ s.id ≠ "" := by
    simp only [List.mem_filterMap, List.mem_eraseDups]
    refine ⟨fun ⟨o, ho, h⟩ ↦ ?_, fun ⟨h, hne⟩ ↦ ⟨_, h, truthy_eq_some.mpr ⟨rfl, hne⟩⟩⟩
    obtain ⟨rfl, hne⟩ := truthy_eq_some.mp h
    exact ⟨ho, hne⟩
  simp only [requestedServers, List.mem_filter, decide_eq_true_eq, hid]
  constructor
  · rintro ⟨hs, rfl, hmem, -⟩
    exact ⟨hmem, Database.server_of_mem hs⟩
  · rintro ⟨hmem, hs⟩
    obtain ⟨hs, -, ho⟩ := Database.server_spec hs
    exact ⟨hs, ho, hmem, db.serverTruthy s hs⟩

/-- `evaluateBulk` agrees with `evaluate`.  Either both refuse a call without an
organization or a user, with the same error; or the keys of the result are the
requested servers that exist in the organization, each once, and every value is
the ruling of `evaluate` on that server. -/
theorem evaluateBulk_agrees (db : Database) (orgId userId : Id) (serverIds : List (Option Id)) :
    match evaluateBulk db orgId userId serverIds with
    | .error err => (orgId = "" ∨ userId = "") ∧
        ∀ serverId, evaluate db { orgId, userId, serverId } = .error err
    | .ok out =>
      (out.map Prod.fst).Nodup ∧
      (∀ id, id ∈ out.map Prod.fst ↔
        some id ∈ serverIds ∧ ∃ s, db.server orgId id = some s) ∧
      ∀ id b, (id, b) ∈ out →
        ∃ e, evaluate db { orgId, userId, serverId := id } = .ok e ∧ SameRuling b e := by
  by_cases ho : orgId = ""
  · subst ho
    simp [evaluateBulk, evaluate]
  by_cases hu : userId = ""
  · subst hu
    simp [evaluateBulk, evaluate, ho]
  rw [evaluateBulk_eq serverIds ho hu]
  refine ⟨?_, fun id ↦ ⟨fun h ↦ ?_, fun h ↦ ?_⟩, fun id b hb ↦ ?_⟩
  · rw [List.map_map]
    exact (List.Sublist.map Server.id List.filter_sublist).nodup db.serverKey
  · obtain ⟨s, hs, rfl⟩ := List.mem_map.mp (by simpa [List.map_map] using h)
    obtain ⟨hmem, hrow⟩ := mem_requestedServers.mp hs
    exact ⟨hmem, s, hrow⟩
  · obtain ⟨hmem, s, hrow⟩ := h
    obtain rfl := (Database.server_spec hrow).2.1
    exact List.mem_map.mpr ⟨_, List.mem_map.mpr ⟨s, mem_requestedServers.mpr ⟨hmem, hrow⟩, rfl⟩, rfl⟩
  · obtain ⟨s, hs, he⟩ := List.mem_map.mp hb
    obtain ⟨rfl, rfl⟩ := Prod.mk.inj he
    have hrow := (mem_requestedServers.mp hs).2
    have hne := db.serverTruthy s (Database.server_spec hrow).1
    exact ⟨_, evaluate_eq_rulingOf ho hu hne hrow, bulkRuling_same s⟩

end Shellius
