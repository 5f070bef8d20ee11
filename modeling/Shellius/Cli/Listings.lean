import Shellius.Cli.ActiveAccess
import Shellius.Lib.Paging

/-!
# What the CLI lists

`ListHosts` and `listAccessRequests` of `internal/api/client.go`.  Both read a list page by page,
while servers and requests come and go.  A row that is taken out moves all rows behind it to the
front, one of them off the page that is asked for next; `Calm` says that this does not happen, that
less than a page is added between two requests, and that the list fits into the pages.

Newest rows come first.  `applyIntents`, which labels the hosts that were found, is left out.
-/

namespace Shellius.Cli.Listings

open Lib.Paging
open ActiveAccess (AccessRequest)

structure ServerListItem where
  id : Id
  displayName : String := ""
  hostname : String := ""
  port : Int := 22
  environment : String := "dev"
  sshUser : String := ""
  isActive : Bool := true
  customerId : Id := ""
  customerName : String := ""

structure Host where
  id : Id
  name : String
  hostname : String
  port : Int
  environment : String
  customerName : String
  customerId : Id
  principal : String
  accessStatus : String

def toHost (skipsProdApproval : Bool) (s : ServerListItem) : Host where
  id := s.id
  name := s.displayName
  hostname := s.hostname
  port := if s.port = 0 then 22 else s.port
  environment := s.environment
  customerName := s.customerName
  customerId := s.customerId
  principal := s.sshUser
  accessStatus :=
    if s.environment = "prod" && !skipsProdApproval then "requires_approval" else "direct"

def apiPageSize : Nat := 100

def maxListPages : Nat := 500

/-! ## Servers -/

structure ServerListData where
  items : List ServerListItem
  total : Int
  pageSize : Int

/-- The size that the server says it used, if it says one. -/
def ServerListData.reply (d : ServerListData) : Reply ServerListItem where
  items := d.items
  total := d.total
  size := if d.pageSize ≤ 0 then apiPageSize else d.pageSize

/-- `ListHosts`, where an answer that fails is none. -/
def listHosts (skipsProdApproval : Bool) (fetch : Nat → Option ServerListData) :
    Option (List Host) :=
  (walk ServerListItem.id "" (·.seen.length) (fun page ↦ (fetch page).map (·.reply))
    maxListPages 1 {}).map fun t ↦
      (t.rows.filter (·.isActive)).map (toHost skipsProdApproval)

/-- `GET /api/servers` -/
def getServers (page : Nat) (servers : List ServerListItem) : ServerListData where
  items := (servers.drop ((page - 1) * apiPageSize)).take apiPageSize
  total := servers.length
  pageSize := apiPageSize

/-! ## Requests -/

/-- The two shapes that a page has been seen in, or neither. -/
inductive Body
  | list (items : List AccessRequest)
  | envelope (items accessRequests : List AccessRequest) (total : Int)
  | other

def decodeRequestPage : Body → Option (Reply AccessRequest)
  | .list items => some ⟨items, false, 0, apiPageSize⟩
  | .envelope items accessRequests total =>
    some ⟨if items.isEmpty then accessRequests else items, true, total, apiPageSize⟩
  | .other => none

def listAccessRequests (fetch : Nat → Option Body) : Option (List AccessRequest) :=
  (walk AccessRequest.id "" (·.rows.length) (fun page ↦ (fetch page).bind decodeRequestPage)
    maxListPages 1 {}).map (·.rows)

/-- `GET /api/access-requests` -/
def getAccessRequests (page : Nat) (requests : List AccessRequest) : Body :=
  .envelope ((requests.drop ((page - 1) * apiPageSize)).take apiPageSize) [] requests.length

/-! ## Once each -/

/-- The server is there and active at every request. -/
def Throughout (servers : Nat → List ServerListItem) (id : Id) : Prop :=
  ∀ p, id ∈ (servers p).map (·.id) ∧ ∀ s ∈ servers p, s.id = id → s.isActive = true

/-- Every host, and every request, that is there all the time is listed once. -/
structure ListsOnce (servers : Nat → List ServerListItem) (requests : Nat → List AccessRequest) :
    Prop where
  hosts : ∀ skipsProdApproval,
    ∃ hosts, listHosts skipsProdApproval (fun p ↦ some (getServers p (servers p))) = some hosts ∧
      ∀ id, Throughout servers id → (hosts.map (·.id)).count id = 1
  requests :
    ∃ all, listAccessRequests (fun p ↦ some (getAccessRequests p (requests p))) = some all ∧
      ∀ id, (∀ p, id ∈ (requests p).map (·.id)) → (all.map (·.id)).count id = 1

/-- Whatever is answered, no more than so many pages are asked for. -/
structure Stops : Prop where
  hosts : ∀ skipsProdApproval fetch fetch', (∀ p, 1 ≤ p → p ≤ maxListPages → fetch p = fetch' p) →
    listHosts skipsProdApproval fetch = listHosts skipsProdApproval fetch'
  requests : ∀ fetch fetch', (∀ p, 1 ≤ p → p ≤ maxListPages → fetch p = fetch' p) →
    listAccessRequests fetch = listAccessRequests fetch'

theorem stops : Stops where
  hosts skips fetch fetch' h := by
    unfold listHosts
    rw [walk_congr _ _ fun p hp hlt ↦ by rw [h p hp (by omega)]]
  requests fetch fetch' h := by
    unfold listAccessRequests
    rw [walk_congr _ _ fun p hp hlt ↦ by rw [h p hp (by omega)]]

theorem decodeRequestPage_getAccessRequests (page : Nat) (requests : List AccessRequest) :
    decodeRequestPage (getAccessRequests page requests) =
      some (pageOf apiPageSize page requests) := by
  simp only [decodeRequestPage, getAccessRequests, pageOf]
  split
  · rename_i hempty
    rw [List.isEmpty_iff.mp hempty]
  · rfl

theorem after_none {α : Type} (key : α → Id) (list : Nat → List α) :
    After key apiPageSize list 0 {} where
  seen := rfl
  nodup := .nil
  below k hk := absurd hk List.not_mem_nil
  covered k hk := absurd hk (by simp)
  drawn x hx := absurd hx List.not_mem_nil

section

variable {servers : Nat → List ServerListItem} {requests : Nat → List AccessRequest}

/-- Whatever is answered the listings come to an end, and while the lists are calm they are
complete. -/
theorem listed_once (hservers : Calm ServerListItem.id "" apiPageSize maxListPages servers)
    (hrequests : Calm AccessRequest.id "" apiPageSize maxListPages requests) :
    Stops ∧ ListsOnce servers requests := by
  refine ⟨stops, fun skips ↦ ?_, ?_⟩
  · obtain ⟨t, hwalk, hwhole⟩ := walk_lists (·.seen.length) hservers (fun _ _ ↦ rfl)
      (by decide) (Nat.zero_add _) (by decide) (after_none _ _)
    refine ⟨_, congrArg (Option.map _) hwalk, fun id hid ↦ ?_⟩
    have hids : ((t.rows.filter (·.isActive)).map (toHost skips)).map (·.id) =
        (t.rows.filter (·.isActive)).map (·.id) := List.map_map
    have hnodup := hwhole.nodup
    have hmem := hwhole.all id (hid 1).1
    rw [hwhole.seen] at hnodup hmem
    obtain ⟨s, hs, rfl⟩ := List.mem_map.mp hmem
    obtain ⟨p, hp⟩ := hwhole.drawn s hs
    rw [hids]
    exact List.count_eq_one_of_mem (hnodup.sublist (List.filter_sublist.map _))
      (List.mem_map_of_mem (List.mem_filter.mpr ⟨hs, (hid p).2 s hp rfl⟩))
  · obtain ⟨t, hwalk, hwhole⟩ := walk_lists (·.rows.length) hrequests
      (fun t ht ↦ by rw [ht, List.length_map]) (by decide) (Nat.zero_add _) (by decide)
      (after_none _ _)
    have hlist : listAccessRequests (fun p ↦ some (getAccessRequests p (requests p))) =
        some t.rows := by
      simp only [listAccessRequests, Option.bind_some, decodeRequestPage_getAccessRequests]
      exact congrArg (Option.map _) hwalk
    refine ⟨_, hlist, fun id hid ↦ ?_⟩
    have hnodup := hwhole.nodup
    have hmem := hwhole.all id (hid 1)
    rw [hwhole.seen] at hnodup hmem
    exact List.count_eq_one_of_mem hnodup hmem

end

def inventory (n : Nat) : List ServerListItem :=
  (List.range n).map fun i ↦ { id := toString i }

theorem stillInventory_listed :
    Stops ∧ ListsOnce (fun _ ↦ inventory 3) fun _ ↦ [{ id := "request" }] := by
  refine listed_once ⟨fun _ ↦ by decide +kernel, fun _ ↦ by decide +kernel,
    fun _ _ _ ↦ ⟨[], by decide, rfl⟩, by decide +kernel⟩ ⟨fun _ ↦ by decide, fun _ ↦ by decide,
    fun _ _ _ ↦ ⟨[], by decide, rfl⟩, by decide⟩

def dwindling (p : Nat) : List ServerListItem :=
  if p ≤ 1 then inventory 101 else (inventory 101).tail

/-- The last server is never asked for, when one before it is removed. -/
theorem removal_hides_another : ¬ ∀ (servers : Nat → List ServerListItem)
    (requests : Nat → List AccessRequest),
    (∀ p, ((servers p).map (·.id)).Nodup) → (∀ p, ((requests p).map (·.id)).Nodup) →
    (∀ p, ∀ s ∈ servers p, s.id ≠ "") → (∀ p, ∀ r ∈ requests p, r.id ≠ "") →
    Stops ∧ ListsOnce servers requests := by
  intro h
  have hnodup : ((inventory 101).map (·.id)).Nodup := by decide +kernel
  have hnamed : ∀ s ∈ inventory 101, s.id ≠ "" := by decide +kernel
  have hsub : ∀ p, (dwindling p).Sublist (inventory 101) := by
    intro p
    unfold dwindling
    split
    · exact .refl _
    · exact List.tail_sublist _
  obtain ⟨hosts, hlist, honce⟩ := (h dwindling (fun _ ↦ [])
    (fun p ↦ hnodup.sublist ((hsub p).map _)) (fun _ ↦ .nil)
    (fun p s hs ↦ hnamed s ((hsub p).subset hs)) (fun _ _ hr ↦ absurd hr List.not_mem_nil)).2.hosts
      false
  have hcount := honce "100" fun p ↦ by
    unfold dwindling
    split
    · exact ⟨by decide +kernel, by decide +kernel⟩
    · exact ⟨by decide +kernel, by decide +kernel⟩
  obtain ⟨t, hwalk, rfl⟩ := Option.map_eq_some_iff.mp hlist
  obtain ⟨host, hhost, hid⟩ := List.mem_map.mp (List.one_le_count_iff.mp hcount.ge)
  obtain ⟨s, hs, rfl⟩ := List.mem_map.mp hhost
  obtain ⟨p, r, hr, hmem⟩ := (mem_page_of_walk hwalk s (List.mem_filter.mp hs).1).resolve_left
    List.not_mem_nil
  obtain rfl := Option.some.inj hr
  have hmem : s ∈ ((dwindling p).drop ((p - 1) * apiPageSize)).take apiPageSize := hmem
  have hpages : ∀ s ∈ (inventory 101).take 100, s.id ≠ "100" := by decide +kernel
  unfold dwindling at hmem
  split at hmem
  · rename_i hp
    rw [Nat.sub_eq_zero_of_le hp, Nat.zero_mul, List.drop_zero] at hmem
    exact hpages s hmem hid
  · rename_i hp
    have hlength : (inventory 101).tail.length ≤ (p - 1) * apiPageSize := by
      simp only [inventory, apiPageSize, List.length_tail, List.length_map, List.length_range]
      omega
    rw [List.drop_of_length_le hlength] at hmem
    cases hmem

end Shellius.Cli.Listings
