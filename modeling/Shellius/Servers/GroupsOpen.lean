import Shellius.Servers.Groups

/-!
# A group opens to its servers

The groups are a partition of the list, and the groups within a group add up to it.  A group counts
as many servers as the list has with the values of the group as filters, but for servers with a
value that reads as *empty* and is not: the text `__none__` in a column, which the filter by it does
not find.
-/

namespace Shellius.Servers

open Lib Collector
open Posture.Views (noValue valueKey valueKey_some)

section

variable (rt : Runtime) (inv : Inventory) (orgId : Id) (scope : Scope) (now : Millis)

def valueOf (s : ListedServer) (d : Dim) : String := valueKey (d.text inv now s)

def Listed (sortBy : Option String) (desc : Bool) (pageSize : Nat) (q : ServerFilters)
    (s : ListedServer) : Prop :=
  ∃ page result, listServers rt inv orgId scope now q sortBy desc page pageSize = some result ∧
    s ∈ result.items

/-- A server is in one group without groups in it; a group counts what the list has with its values
as filters, and what the groups in it count. -/
structure Opens (sortBy : Option String) (desc : Bool) (pageSize : Nat) (q : ServerFilters)
    (tree : List (Node Dim String)) : Prop where
  leaf : ∀ s, Listed rt inv orgId scope now sortBy desc pageSize q s →
    ∃! path, (∃ n, Reaches tree path n ∧ n.children = []) ∧
      ∀ step ∈ path, valueOf inv now s step.1 = step.2
  count : ∀ path n, Reaches tree path n → ∀ page, ∃ result,
    listServers rt inv orgId scope now (path.foldl ServerFilters.withValue q) sortBy desc page
      pageSize = some result ∧ n.count = result.total
  sum : ∀ path n, Reaches tree path n → n.children ≠ [] →
    n.count = (n.children.map Node.count).sum

end

/-- Whether what a server has in a dimension is not taken for empty when it is not, or, for its
customer, when it cannot be. -/
def Readable (s : ListedServer) : Dim → Prop
  | .customer => s.customerId ≠ "" ∧ s.customerId ≠ noValue
  | .osType => s.osType ≠ some noValue
  | .cloudProvider => s.cloudProvider ≠ some noValue
  | _ => True

instance (s : ListedServer) : (d : Dim) → Decidable (Readable s d)
  | .customer => inferInstanceAs (Decidable (_ ∧ _))
  | .osType | .cloudProvider => inferInstanceAs (Decidable (_ ≠ _))
  | .environment | .health | .sshTrust | .collector | .protocol | .active => .isTrue trivial

section

variable {rt : Runtime} {inv : Inventory} {orgId : Id} {scope : Scope} {now : Millis}
  {q : ServerFilters} {f r : ListedServer} {d : Dim} {v : Option String} {keys : List Dim}
  {p p' : ListedServer → Bool}

/-! ## Values as filters -/

theorem valueKey_ne_empty (o : Option String) : valueKey o ≠ "" := by
  unfold valueKey
  cases h : truthy o with
  | none => decide
  | some x => exact (truthy_eq_some.mp h).2

theorem truthy_valueKey (o : Option String) : truthy (some (valueKey o)) = some (valueKey o) :=
  truthy_eq_some.mpr ⟨rfl, valueKey_ne_empty o⟩

theorem valueKey_eq {o : Option String} {x : String} (h : valueKey o = x) (hx : x ≠ noValue) :
    o = some x := by
  unfold valueKey at h
  cases ho : truthy o with
  | none =>
    rw [ho] at h
    exact absurd h.symm hx
  | some y =>
    rw [ho] at h
    obtain rfl : y = x := h
    exact (truthy_eq_some.mp ho).1

theorem requiredWhere_value {c c' : String} :
    requiredWhere (some (valueKey (some c))) c' = true ↔ c ≠ "" ∧ c ≠ noValue ∧ c' = c := by
  rw [requiredWhere, truthy_valueKey, Option.all_some, Bool.and_eq_true, decide_eq_true_iff,
    decide_eq_true_iff]
  by_cases hc : c = ""
  · subst hc
    exact ⟨fun h ↦ absurd rfl h.1, fun h ↦ absurd rfl h.1⟩
  · rw [valueKey_some hc]
    exact ⟨fun h ↦ ⟨hc, h⟩, fun h ↦ h.2⟩

theorem nullableWhere_value {o o' : Option String} :
    nullableWhere (some (valueKey o)) o' = true ↔
      if valueKey o = noValue then o' = none ∨ o' = some "" else o' = o := by
  rw [nullableWhere, truthy_valueKey, Option.all_some]
  split
  · rw [Bool.or_eq_true, decide_eq_true_iff, decide_eq_true_iff]
  · rename_i h
    rw [decide_eq_true_iff, ← valueKey_eq rfl h]

theorem valueKey_of_empty {o : Option String} (h : o = none ∨ o = some "") :
    valueKey o = noValue := by
  obtain rfl | rfl := h <;> rfl

theorem activeWhere_value {b b' : Bool} :
    activeWhere (some (valueKey (some (if b then "true" else "false")))) b' = true ↔ b' = b := by
  cases b <;> cases b' <;> decide

theorem statusWhere_value {names : List String} {c c' : String} (hc : c ∈ names) (hne : c ≠ "")
    (hempty : c ≠ noValue) :
    statusWhere names (some (valueKey (some c))) c' = true ↔ c' = c := by
  rw [valueKey_some hne, statusWhere, if_neg hempty, if_pos hc, decide_eq_true_iff]

theorem readable_nullable {o : Option String} :
    (if valueKey o = noValue then o = none ∨ o = some "" else o = o) ↔ o ≠ some noValue := by
  split
  · rename_i h
    constructor
    · rintro (rfl | rfl)
      · decide
      · decide
    · intro hne
      cases o with
      | none => exact .inl rfl
      | some x =>
        by_cases hx : x = ""
        · exact .inr (congrArg some hx)
        · rw [valueKey_some hx] at h
          exact absurd (congrArg some h) hne
  · rename_i h
    refine iff_of_true rfl ?_
    rintro rfl
    exact h rfl

theorem environment_key (e : Environment) : e.key ≠ "" ∧ e.key ≠ noValue := by
  cases e <;> decide

theorem health_key (h : HealthStatus) : h.key ≠ "" ∧ h.key ≠ noValue := by
  cases h <;> decide

theorem protocol_key (e : ServerProtocol) : protocolKey e ≠ "" ∧ protocolKey e ≠ noValue := by
  cases e <;> decide

theorem sshTrust_key (t : SshTrust) :
    t.key ∈ sshTrustStates.map SshTrust.key ∧ t.key ≠ "" ∧ t.key ≠ noValue := by
  cases t <;> decide

theorem collector_key (c : CollectorStatus) :
    c.key ∈ collectorStates.map CollectorStatus.key ∧ c.key ≠ "" ∧ c.key ≠ noValue := by
  cases c with
  | outdated => decide
  | state s => cases s <;> decide

theorem where_self_iff :
    d.where inv now f (some (valueOf inv now f d)) = true ↔ Readable f d := by
  cases d with
  | customer =>
    refine requiredWhere_value.trans ?_
    rw [← and_assoc, and_iff_left rfl]
    rfl
  | environment =>
    refine iff_of_true (requiredWhere_value.mpr ⟨?_, ?_, rfl⟩) trivial
    · exact (environment_key _).1
    · exact (environment_key _).2
  | health =>
    refine iff_of_true (requiredWhere_value.mpr ⟨?_, ?_, rfl⟩) trivial
    · exact (health_key _).1
    · exact (health_key _).2
  | protocol =>
    refine iff_of_true (requiredWhere_value.mpr ⟨?_, ?_, rfl⟩) trivial
    · exact (protocol_key _).1
    · exact (protocol_key _).2
  | osType => exact nullableWhere_value.trans readable_nullable
  | cloudProvider => exact nullableWhere_value.trans readable_nullable
  | active => exact iff_of_true (activeWhere_value.mpr rfl) trivial
  | sshTrust =>
    obtain ⟨hmem, hne, hempty⟩ := sshTrust_key (sshTrustStatus f now)
    exact iff_of_true ((statusWhere_value hmem hne hempty).mpr rfl) trivial
  | collector =>
    obtain ⟨hmem, hne, hempty⟩ := collector_key (collectorStatus inv now f)
    exact iff_of_true ((statusWhere_value hmem hne hempty).mpr rfl) trivial

theorem where_congr (h : d.text inv now f = d.text inv now r) :
    d.where inv now f v = d.where inv now r v := by
  cases d with
  | customer | environment | health | protocol | sshTrust | collector =>
    have htext := Option.some.inj h
    dsimp only [Dim.where]
    rw [htext]
  | osType | cloudProvider =>
    dsimp only [Dim.text] at h
    dsimp only [Dim.where]
    rw [h]
  | active =>
    have hactive : f.isActive = r.isActive := by
      have htext := Option.some.inj h
      cases hf : f.isActive <;> cases hr : r.isActive <;> simp_all
    dsimp only [Dim.where]
    rw [hactive]

theorem nullable_of_value {o o' : Option String} (hr : nullableWhere v o = true)
    (hf : nullableWhere (some (valueKey o)) o' = true) :
    nullableWhere v o' = true ∧ valueKey o' = valueKey o := by
  rw [nullableWhere_value] at hf
  split at hf
  · rename_i hempty
    refine ⟨?_, (valueKey_of_empty hf).trans hempty.symm⟩
    unfold nullableWhere at hr ⊢
    cases hv : truthy v with
    | none => rfl
    | some x =>
      rw [hv, Option.all_some] at hr
      rw [Option.all_some]
      split at hr
      · rename_i hx
        rw [if_pos hx]
        obtain rfl | rfl := hf <;> rfl
      · rename_i hx
        have ho := of_decide_eq_true hr
        rw [ho, valueKey_some (truthy_eq_some.mp hv).2] at hempty
        exact absurd hempty hx
  · rw [hf]
    exact ⟨hr, rfl⟩

theorem where_of_value (hr : d.where inv now r v = true)
    (hf : d.where inv now f (some (valueOf inv now r d)) = true) :
    d.where inv now f v = true ∧ valueOf inv now f d = valueOf inv now r d := by
  have hsame : d.text inv now f = d.text inv now r →
      d.where inv now f v = true ∧ valueOf inv now f d = valueOf inv now r d :=
    fun h ↦ ⟨(where_congr h).trans hr, congrArg valueKey h⟩
  cases d with
  | customer | environment | health | protocol =>
    exact hsame (congrArg some (requiredWhere_value.mp hf).2.2)
  | osType | cloudProvider => exact nullable_of_value hr hf
  | active =>
    have hactive := activeWhere_value.mp hf
    refine hsame ?_
    dsimp only [Dim.text]
    rw [hactive]
  | sshTrust =>
    obtain ⟨hmem, hne, hempty⟩ := sshTrust_key (sshTrustStatus r now)
    exact hsame (congrArg some ((statusWhere_value hmem hne hempty).mp hf))
  | collector =>
    obtain ⟨hmem, hne, hempty⟩ := collector_key (collectorStatus inv now r)
    exact hsame (congrArg some ((statusWhere_value hmem hne hempty).mp hf))

theorem accepts_value (s : ListedServer) (d : Dim) :
    d.accepts (some (valueOf inv now s d)) = true := by
  unfold Dim.accepts valueOf
  rw [truthy_valueKey, Option.all_some, Bool.or_eq_true]
  refine .inr ?_
  cases d with
  | customer | sshTrust | collector | osType | cloudProvider | active => rfl
  | environment => cases h : s.environment <;> simp only [Dim.text, h] <;> decide
  | health => cases h : s.healthStatus <;> simp only [Dim.text, h] <;> decide
  | protocol => cases h : s.protocol <;> simp only [Dim.text, h] <;> decide

/-! ## The conditions of a query -/

theorem mem_dims (d : Dim) : d ∈ dims := by
  cases d <;> decide

variable (rt inv orgId scope now q) in
/-- What a query asks for beside the values. -/
def restWhere (checked : Option Millis → Bool) (s : ListedServer) : Bool :=
  s.orgId = orgId && scope.admits s.customerId && checked s.lastHealthCheck &&
    searchWhere rt q.search s

theorem resolveServerWhere_eq_some :
    resolveServerWhere rt inv orgId scope now q = some p ↔
      ∃ checked, checkedWhere rt q.healthCheckFrom q.healthCheckTo = some checked ∧
        (∀ d : Dim, d.accepts (q.value d) = true) ∧
        p = fun s ↦ s.orgId = orgId && scope.admits s.customerId &&
          (dims.all fun d ↦ d.where inv now s (q.value d)) && checked s.lastHealthCheck &&
          searchWhere rt q.search s := by
  refine Option.bind_eq_some_iff.trans ?_
  refine exists_congr fun checked ↦ and_congr_right fun _ ↦ ?_
  have hall : (dims.all fun d ↦ d.accepts (q.value d)) = true ↔
      ∀ d : Dim, d.accepts (q.value d) = true := by
    rw [List.all_eq_true]
    exact ⟨fun h d ↦ h d (mem_dims d), fun h d _ ↦ h d⟩
  rw [← hall]
  split
  · rename_i h
    exact ⟨fun hp ↦ ⟨h, (Option.some.inj hp).symm⟩, fun hp ↦ congrArg some hp.2.symm⟩
  · rename_i h
    constructor
    · intro hp
      cases hp
    · exact fun hp ↦ absurd hp.1 h

theorem where_iff {checked : Option Millis → Bool} {s : ListedServer} :
    (s.orgId = orgId && scope.admits s.customerId &&
      (dims.all fun d ↦ d.where inv now s (q.value d)) && checked s.lastHealthCheck &&
      searchWhere rt q.search s) = true ↔
    restWhere rt orgId scope q checked s = true ∧ ∀ d : Dim, d.where inv now s (q.value d) = true := by
  have hall : (dims.all fun d ↦ d.where inv now s (q.value d)) = true ↔
      ∀ d : Dim, d.where inv now s (q.value d) = true := by
    rw [List.all_eq_true]
    exact ⟨fun h d ↦ h d (mem_dims d), fun h d _ ↦ h d⟩
  unfold restWhere
  simp only [Bool.and_eq_true, hall]
  constructor
  · rintro ⟨⟨⟨⟨horg, hscope⟩, hdims⟩, hchecked⟩, hsearch⟩
    exact ⟨⟨⟨⟨horg, hscope⟩, hchecked⟩, hsearch⟩, hdims⟩
  · rintro ⟨⟨⟨⟨horg, hscope⟩, hchecked⟩, hsearch⟩, hdims⟩
    exact ⟨⟨⟨⟨horg, hscope⟩, hdims⟩, hchecked⟩, hsearch⟩

theorem value_foldl {path : List (Dim × String)} (hpath : ∀ s ∈ path, s.2 = valueOf inv now r s.1)
    (q : ServerFilters) (d : Dim) :
    (path.foldl ServerFilters.withValue q).value d =
      if d ∈ path.map Prod.fst then some (valueOf inv now r d) else q.value d := by
  induction path generalizing q with
  | nil => rfl
  | cons s path ih =>
    obtain ⟨hs, hrest⟩ := List.forall_mem_cons.mp hpath
    rw [List.foldl_cons, ih hrest, List.map_cons]
    by_cases hmem : d ∈ path.map Prod.fst
    · rw [if_pos hmem, if_pos (List.mem_cons_of_mem _ hmem)]
    · rw [if_neg hmem, ServerFilters.withValue]
      dsimp only
      by_cases hd : d = s.1
      · subst hd
        rw [Function.update_self, if_pos List.mem_cons_self, hs]
      · rw [Function.update_of_ne hd, if_neg]
        intro h
        obtain h | h := List.mem_cons.mp h
        · exact hd h
        · exact hmem h

theorem rest_foldl (path : List (Dim × String)) (q : ServerFilters) :
    (path.foldl ServerFilters.withValue q).healthCheckFrom = q.healthCheckFrom ∧
      (path.foldl ServerFilters.withValue q).healthCheckTo = q.healthCheckTo ∧
      (path.foldl ServerFilters.withValue q).search = q.search := by
  induction path generalizing q with
  | nil => exact ⟨rfl, rfl, rfl⟩
  | cons s path ih => exact ih _

/-- The list with the values of a server as filters: the servers of the list that each of the values
finds, which have these values. -/
theorem resolve_foldl {path : List (Dim × String)}
    (hp : resolveServerWhere rt inv orgId scope now q = some p) (hr : p r = true)
    (hpath : ∀ s ∈ path, s.2 = valueOf inv now r s.1) :
    ∃ p', resolveServerWhere rt inv orgId scope now (path.foldl ServerFilters.withValue q) =
        some p' ∧
      ∀ f, p' f = true ↔ p f = true ∧ ∀ s ∈ path, s.1.where inv now f (some s.2) = true := by
  obtain ⟨checked, hchecked, haccepts, rfl⟩ := resolveServerWhere_eq_some.mp hp
  obtain ⟨hfrom, hto, hsearch⟩ := rest_foldl path q
  have hr := (where_iff.mp hr).2
  refine ⟨_, resolveServerWhere_eq_some.mpr ⟨checked, ?_, ?_, rfl⟩, fun f ↦ ?_⟩
  · rw [hfrom, hto]
    exact hchecked
  · intro d
    rw [value_foldl hpath]
    split
    · exact accepts_value r d
    · exact haccepts d
  · rw [where_iff, where_iff]
    have hrest : restWhere rt orgId scope (path.foldl ServerFilters.withValue q) checked f =
        restWhere rt orgId scope q checked f := by
      unfold restWhere
      rw [hsearch]
    rw [hrest, and_assoc]
    refine and_congr_right fun _ ↦ ⟨fun h ↦ ?_, fun h d ↦ ?_⟩
    · have hvalue : ∀ s ∈ path, s.1.where inv now f (some s.2) = true := by
        intro s hs
        have hd := h s.1
        rw [value_foldl hpath, if_pos (List.mem_map_of_mem hs)] at hd
        rw [hpath s hs]
        exact hd
      refine ⟨fun d ↦ ?_, hvalue⟩
      have hd := h d
      rw [value_foldl hpath] at hd
      split at hd
      · exact (where_of_value (hr d) hd).1
      · exact hd
    · rw [value_foldl hpath]
      split
      · rename_i hmem
        obtain ⟨s, hs, rfl⟩ := List.mem_map.mp hmem
        rw [← hpath s hs]
        exact h.2 s hs
      · exact h.1 d

/-! ## Pages -/

theorem listServers_eq_some {sortBy : Option String} {desc : Bool} {page pageSize : Nat}
    {result : ServerPage}
    (h : listServers rt inv orgId scope now q sortBy desc page pageSize = some result) :
    ∃ p, resolveServerWhere rt inv orgId scope now q = some p ∧
      result.total = (passing inv p).length ∧
      result.items = pageOf (min (if pageSize = 0 then 25 else pageSize) 100)
        (if page = 0 then 1 else page) (rt.orderBy sortBy desc (passing inv p)) := by
  obtain ⟨p, hp, h⟩ := Option.bind_eq_some_iff.mp h
  obtain rfl := Option.some.inj h
  exact ⟨p, hp, rfl, rfl⟩

theorem listServers_of_resolve (hp : resolveServerWhere rt inv orgId scope now q = some p)
    (sortBy : Option String) (desc : Bool) (page pageSize : Nat) :
    ∃ result, listServers rt inv orgId scope now q sortBy desc page pageSize = some result ∧
      result.total = (passing inv p).length := by
  refine ⟨_, Option.bind_eq_some_iff.mpr ⟨p, hp, rfl⟩, rfl⟩

theorem listed_iff (hp : resolveServerWhere rt inv orgId scope now q = some p)
    {sortBy : Option String} {desc : Bool} {pageSize : Nat} :
    Listed rt inv orgId scope now sortBy desc pageSize q f ↔ f ∈ passing inv p := by
  constructor
  · rintro ⟨page, result, h, hf⟩
    obtain ⟨p', hp', -, hitems⟩ := listServers_eq_some h
    obtain rfl : p = p' := Option.some.inj (hp.symm.trans hp')
    rw [hitems] at hf
    have hmem := List.mem_of_mem_drop (List.mem_of_mem_take hf)
    exact (rt.orderBy_perm _ _ _).mem_iff.mp hmem
  · intro hf
    have hmem := (rt.orderBy_perm sortBy desc _).mem_iff.mpr hf
    have hpos : 0 < min (if pageSize = 0 then 25 else pageSize) 100 := by
      split <;> omega
    rw [← flatMap_pages (l := rt.orderBy sortBy desc (passing inv p)) (le_pageCount_mul hpos)]
      at hmem
    obtain ⟨i, -, hi⟩ := List.mem_flatMap.mp hmem
    exact ⟨i + 1, _, Option.bind_eq_some_iff.mpr ⟨p, hp, rfl⟩, hi⟩

/-! ## Groups -/

theorem value_columns (rt : Runtime) (hd : d ∈ keys) (s : ListedServer) :
    (serverGrouping rt inv).value d (columns inv now keys s) = valueOf inv now s d := by
  have hlookup : (columns inv now keys s).lookup d = some (d.text inv now s) := by
    unfold columns
    induction keys with
    | nil => cases hd
    | cons e keys ih =>
      rw [List.map_cons, List.lookup_cons]
      by_cases he : d = e
      · rw [he, beq_self_eq_true]
      · rw [beq_eq_false_iff_ne.mpr he]
        exact ih (List.mem_of_ne_of_mem he hd)
  show valueKey ((columns inv now keys s).lookup d).join = _
  rw [hlookup]
  rfl

theorem follows_iff {path : List (Dim × String)} (hpath : ∀ s ∈ path, s.1 ∈ keys) :
    (serverGrouping rt inv).follows path (columns inv now keys f) = true ↔
      ∀ s ∈ path, valueOf inv now f s.1 = s.2 := by
  rw [Grouping.follows, List.all_eq_true]
  refine forall₂_congr fun s hs ↦ ?_
  rw [decide_eq_true_iff, value_columns rt (hpath s hs)]

theorem sum_countedRows (keys : List Dim) (servers : List ListedServer)
    (c : List (Dim × Option String) → Bool) :
    (((countedRows inv now keys servers).filter fun r ↦ c r.1).map Prod.snd).sum =
      servers.countP fun s ↦ c (columns inv now keys s) := by
  unfold countedRows
  split
  · rw [List.filter_map, List.map_map, List.countP_eq_length_filter]
    show (List.map (fun _ ↦ 1) _).sum = _
    rw [List.map_const', List.sum_replicate_nat, Nat.mul_one]
    rfl
  · rw [sum_tally, List.countP_map]
    rfl

theorem exists_counted {c : List (Dim × Option String) × Nat} {servers : List ListedServer}
    (h : c ∈ countedRows inv now keys servers) : ∃ s ∈ servers, columns inv now keys s = c.1 := by
  unfold countedRows at h
  split at h
  · obtain ⟨s, hs, rfl⟩ := List.mem_map.mp h
    exact ⟨s, hs, rfl⟩
  · obtain ⟨s, hs, hc⟩ := List.mem_map.mp (mem_tally.mp h).1
    exact ⟨s, hs, hc⟩

theorem exists_row (inv : Inventory) (now : Millis) (keys : List Dim) {servers : List ListedServer} (hf : f ∈ servers) :
    ∃ c ∈ countedRows inv now keys servers, c.1 = columns inv now keys f := by
  unfold countedRows
  split
  · exact ⟨_, List.mem_map_of_mem hf, rfl⟩
  · exact ⟨_, List.mem_map_of_mem (List.mem_dedup.mpr (List.mem_map_of_mem hf)), rfl⟩

theorem count_of_group {path : List (Dim × String)} {n : Node Dim String}
    (h : Reaches ((serverGrouping rt inv).level keys (countedRows inv now keys (passing inv p)))
      path n) :
    n.count = (passing inv p).countP fun f ↦ ∀ s ∈ path, valueOf inv now f s.1 = s.2 := by
  have hkeys := Grouping.mem_of_reaches h
  rw [Grouping.count_of_reaches h, sum_countedRows]
  refine List.countP_congr fun f _ ↦ ?_
  rw [follows_iff hkeys, decide_eq_true_iff]

theorem exists_server_of_group {path : List (Dim × String)} {n : Node Dim String}
    (h : Reaches ((serverGrouping rt inv).level keys (countedRows inv now keys (passing inv p)))
      path n) : ∃ r ∈ passing inv p, ∀ s ∈ path, s.2 = valueOf inv now r s.1 := by
  obtain ⟨c, hc, hfollows⟩ := Grouping.exists_of_reaches h
  obtain ⟨r, hr, hcolumns⟩ := exists_counted hc
  rw [← hcolumns, follows_iff (Grouping.mem_of_reaches h)] at hfollows
  exact ⟨r, hr, fun s hs ↦ (hfollows s hs).symm⟩

theorem total_of_group {path : List (Dim × String)}
    (hp : resolveServerWhere rt inv orgId scope now q = some p) (hr : r ∈ passing inv p)
    (hpath : ∀ s ∈ path, s.2 = valueOf inv now r s.1) (sortBy : Option String) (desc : Bool)
    (page pageSize : Nat) :
    ∃ result, listServers rt inv orgId scope now (path.foldl ServerFilters.withValue q) sortBy desc
        page pageSize = some result ∧
      result.total =
        (passing inv p).countP fun f ↦ ∀ s ∈ path, s.1.where inv now f (some s.2) = true := by
  obtain ⟨p', hp', hiff⟩ := resolve_foldl hp (List.mem_filter.mp hr).2 hpath
  obtain ⟨result, hresult, htotal⟩ := listServers_of_resolve hp' sortBy desc page pageSize
  refine ⟨result, hresult, ?_⟩
  rw [htotal, passing, passing, ← List.countP_eq_length_filter, List.countP_filter]
  refine List.countP_congr fun f _ ↦ ?_
  rw [hiff, Bool.and_eq_true, decide_eq_true_iff]
  exact and_comm

theorem value_of_found {path : List (Dim × String)}
    (hp : resolveServerWhere rt inv orgId scope now q = some p) (hr : r ∈ passing inv p)
    (hpath : ∀ s ∈ path, s.2 = valueOf inv now r s.1)
    (hf : ∀ s ∈ path, s.1.where inv now f (some s.2) = true) :
    ∀ s ∈ path, valueOf inv now f s.1 = s.2 := by
  obtain ⟨checked, -, -, rfl⟩ := resolveServerWhere_eq_some.mp hp
  have hwhere := (where_iff.mp (List.mem_filter.mp hr).2).2
  intro s hs
  have hfound := hf s hs
  rw [hpath s hs] at hfound ⊢
  exact (where_of_value (hwhere s.1) hfound).2

theorem found_iff {path : List (Dim × String)} (h : ∀ s ∈ path, valueOf inv now f s.1 = s.2) :
    (∀ s ∈ path, s.1.where inv now f (some s.2) = true) ↔ ∀ s ∈ path, Readable f s.1 := by
  refine forall₂_congr fun s hs ↦ ?_
  rw [← h s hs]
  exact where_self_iff

theorem of_countP_eq {α : Type*} {l : List α} {c c' : α → Bool} (himp : ∀ a ∈ l, c' a → c a)
    (h : l.countP c = l.countP c') : ∀ a ∈ l, c a → c' a := by
  have hall : (l.filter c).countP c' = (l.filter c).length := by
    rw [← List.countP_eq_length_filter, h, List.countP_filter]
    refine List.countP_congr fun a ha ↦ ?_
    rw [Bool.and_eq_true]
    exact and_iff_left_of_imp (himp a ha)
  intro a ha hc
  exact List.countP_eq_length.mp hall a (List.mem_filter.mpr ⟨ha, hc⟩)

theorem readable_of_opens {sortBy : Option String} {desc : Bool} {pageSize : Nat}
    (hp : resolveServerWhere rt inv orgId scope now q = some p) (hkeys : keys ≠ [])
    (h : Opens rt inv orgId scope now sortBy desc pageSize q
      ((serverGrouping rt inv).level keys (countedRows inv now keys (passing inv p))))
    (hr : r ∈ passing inv p) (hd : d ∈ keys) : Readable r d := by
  -- the group of the server counts it, so that its values find it
  obtain ⟨c, hc, hcolumns⟩ := exists_row inv now keys hr
  obtain ⟨n, hreach, -⟩ := Grouping.exists_leaf (g := serverGrouping rt inv) hc hkeys
  have hpath : ∀ s ∈ (serverGrouping rt inv).pathOf keys c.1, s.2 = valueOf inv now r s.1 := by
    intro s hs
    obtain ⟨e, he, rfl⟩ := List.mem_map.mp hs
    rw [hcolumns]
    exact value_columns rt he r
  obtain ⟨result, hresult, htotal⟩ := total_of_group hp hr hpath sortBy desc 1 pageSize
  obtain ⟨result', hresult', hcount⟩ := h.count _ n hreach 1
  obtain rfl : result = result' := Option.some.inj (hresult.symm.trans hresult')
  rw [count_of_group hreach, htotal] at hcount
  have hfound := of_countP_eq (fun f _ hf ↦ decide_eq_true
    (value_of_found hp hr hpath (of_decide_eq_true hf))) hcount r hr
    (decide_eq_true fun s hs ↦ (hpath s hs).symm)
  exact (found_iff fun s hs ↦ (hpath s hs).symm).mp (of_decide_eq_true hfound) _
    (List.mem_map_of_mem hd)

/-- The list and its groups agree, if and only if no server of the list has a value that reads as
empty and is not. -/
theorem groups_open_iff (sortBy : Option String) (desc : Bool) (pageSize : Nat)
    {groupBy : List String} {tree : List (Node Dim String)} (hkeys : parseGroupBy groupBy ≠ [])
    (htree : listServerGroups rt inv orgId scope now q groupBy = some tree) :
    Opens rt inv orgId scope now sortBy desc pageSize q tree ↔
      ∀ s, Listed rt inv orgId scope now sortBy desc pageSize q s →
        ∀ d ∈ parseGroupBy groupBy, Readable s d := by
  rw [listServerGroups, if_neg hkeys] at htree
  obtain ⟨p, hp, rfl⟩ := Option.map_eq_some_iff.mp htree
  generalize parseGroupBy groupBy = keys at *
  constructor
  · exact fun h r hr d hd ↦ readable_of_opens hp hkeys h ((listed_iff hp).mp hr) hd
  · intro h
    refine ⟨fun f hf ↦ ?_, fun path n hreach page ↦ ?_, fun path n hreach hn ↦
      Grouping.count_eq_sum_children hreach hn⟩
    · rw [listed_iff hp] at hf
      obtain ⟨c, hc, hcolumns⟩ := exists_row inv now keys hf
      have hleaf := Grouping.exists_leaf (g := serverGrouping rt inv) hc hkeys
      rw [hcolumns] at hleaf
      refine ⟨_, ⟨hleaf, ?_⟩, ?_⟩
      · intro s hs
        obtain ⟨e, he, rfl⟩ := List.mem_map.mp hs
        exact (value_columns rt he f).symm
      · rintro path ⟨⟨n, hreach, hn⟩, hvalues⟩
        have hdims := Grouping.dims_of_leaf hreach hn
        refine Grouping.eq_pathOf hdims ((follows_iff fun s hs ↦ ?_).mpr hvalues)
        rw [← hdims]
        exact List.mem_map_of_mem hs
    · obtain ⟨r, hr, hpath⟩ := exists_server_of_group hreach
      obtain ⟨result, hresult, htotal⟩ := total_of_group hp hr hpath sortBy desc page pageSize
      refine ⟨result, hresult, ?_⟩
      rw [count_of_group hreach, htotal]
      refine List.countP_congr fun f hf ↦ ?_
      rw [decide_eq_true_iff, decide_eq_true_iff]
      constructor
      · exact fun hvalues ↦ (found_iff hvalues).mpr fun s hs ↦
          h f ((listed_iff hp).mpr hf) s.1 (Grouping.mem_of_reaches hreach s hs)
      · exact value_of_found hp hr hpath

end

def plainRuntime : Runtime where
  contains _ _ := false
  parseDate _ := none
  toUpper s := s
  toLower s := s
  localeCompare _ _ := .eq
  orderBy _ _ rows := rows
  orderBy_perm _ _ rows := List.Perm.refl rows

def serverWith (id : Id) (osType : Option String) : ListedServer :=
  { id, osType, orgId := "o", customerId := "c", hostname := id, ipAddress := "10.0.0.1" }

def threeServers : Inventory where
  servers := ⟨[serverWith "a" none, serverWith "b" (some "linux"), serverWith "d" (some "")],
    by decide⟩

theorem groups_open_in_use :
    ∃ tree, listServerGroups plainRuntime threeServers "o" .unscoped 0 {} ["osType", "sshTrust"] =
      some tree ∧ Opens plainRuntime threeServers "o" .unscoped 0 none false 25 {} tree := by
  have hsome : (listServerGroups plainRuntime threeServers "o" .unscoped 0 {}
      ["osType", "sshTrust"]).isSome = true := by decide +kernel
  have hreadable : ∀ s ∈ threeServers.servers.rows, ∀ d ∈ dims, Readable s d := by decide +kernel
  obtain ⟨tree, htree⟩ := Option.isSome_iff_exists.mp hsome
  refine ⟨tree, htree, (groups_open_iff none false 25 (by decide +kernel) htree).mpr ?_⟩
  rintro s ⟨page, result, h, hs⟩ d -
  obtain ⟨p, hp, -, -⟩ := listServers_eq_some h
  have hpass := (listed_iff hp).mp ⟨page, result, h, hs⟩
  exact hreadable s (List.mem_filter.mp hpass).1 d (mem_dims d)

def oddServer : Inventory where
  servers := ⟨[serverWith "a" (some "__none__")], by decide⟩

/-- The group of the servers without an operating system counts a server that it does not open
to. -/
theorem a_group_opens_to_nothing :
    ∃ tree, listServerGroups plainRuntime oddServer "o" .unscoped 0 {} ["osType"] = some tree ∧
      ¬ Opens plainRuntime oddServer "o" .unscoped 0 none false 25 {} tree := by
  have hkeys : parseGroupBy ["osType"] = [.osType] := by decide +kernel
  have hwhere : (resolveServerWhere plainRuntime oddServer "o" .unscoped 0 {}).map
      (fun p ↦ p (serverWith "a" (some "__none__"))) = some true := by decide +kernel
  obtain ⟨p, hp, hpass⟩ := Option.map_eq_some_iff.mp hwhere
  have htree : listServerGroups plainRuntime oddServer "o" .unscoped 0 {} ["osType"] =
      some ((serverGrouping plainRuntime oddServer).level [.osType]
        (countedRows oddServer 0 [.osType] (passing oddServer p))) := by
    rw [listServerGroups, hkeys, if_neg (List.cons_ne_nil _ _), hp, Option.map_some]
  refine ⟨_, htree, fun h ↦ ?_⟩
  have hmem : serverWith "a" (some "__none__") ∈ passing oddServer p :=
    List.mem_filter.mpr ⟨List.mem_singleton.mpr rfl, hpass⟩
  exact readable_of_opens hp (List.cons_ne_nil _ _) h hmem List.mem_cons_self rfl

end Shellius.Servers
