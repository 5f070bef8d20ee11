import Shellius.Lib.Voucher
import Shellius.Schema

/-!
# Tickets of terminal sockets

A terminal opens a socket with a ticket in its URL, which an authenticated call got from
`wsTicketService.issue` within the last half minute, and `handleConnection` admits the user of the
ticket if they are still active and have not signed out everywhere since.  URLs are logged, so that
a ticket must not be good for a second socket, nor for somebody whose sessions were ended.
-/

namespace Shellius.Terminal.WsTicket

open Lib

/-- What a ticket stands for; `π` is what the socket is to be connected with. -/
structure Payload (π : Type*) where
  userId : Id
  orgId : Id
  purpose : String
  params : π
  issuedAt : Millis
deriving DecidableEq

/-- The columns of a user that `handleConnection` reads. -/
structure Account where
  id : Id
  orgId : Id
  active : Bool := true
  sessionsValidFrom : Option Millis := none
deriving DecidableEq

/-- `JSON.stringify` and encryption, and back. -/
structure Codec (π : Type*) where
  encode : Payload π → Except ApiError String
  decode : String → Option (Payload π)
  decode_encode : ∀ {p text}, encode p = .ok text → decode text = some p

/-- `TICKET_TTL_SECONDS`, in milliseconds -/
def ticketTtl : Millis := 30 * 1000

def ticketKey (ticket : String) : String := "ws:ticket:" ++ ticket

/-- A ticket was issued, or a socket was admitted with one. -/
inductive Note (π : Type*)
  | issued (ticket : String) (payload : Payload π) (text : String)
  | admitted (ticket : String) (account : Account) (params : π) (text : String) (time : Millis)

structure State (π : Type*) where
  tickets : Expiring String String Millis := fun _ ↦ none
  users : List Account
  now : Millis
  notes : List (Note π) := []

inductive Event (π : Type*)
  | issue (userId orgId : Id) (purpose : String) (params : π) (ticket : String)
  | connect (ticket : String)
  | wait (now : Millis)
  | /-- Users are added, suspended, signed out everywhere or deleted. -/
    edit (users : List Account)

variable {π : Type*} (codec : Codec π)

def issue (s : State π) (userId orgId : Id) (purpose : String) (params : π) (ticket : String) :
    Except ApiError (State π) :=
  if userId = "" ∨ orgId = "" then .error ⟨400, "userId and orgId are required", none⟩
  else if purpose ∉ ["ssh", "rdp"] then .error ⟨400, "purpose must be 'ssh' or 'rdp'", none⟩
  else
    let payload := ⟨userId, orgId, purpose, params, s.now⟩
    match codec.encode payload with
    | .error e => .error e
    | .ok text =>
      .ok { s with
        tickets := s.tickets.set (ticketKey ticket) text (some (s.now + ticketTtl))
        notes := .issued ticket payload text :: s.notes }

/-- `consume` for a purpose, with the text that was found. -/
def consume (s : State π) (ticket expectedPurpose : String) :
    Option (Payload π × String) × State π :=
  if ticket = "" then (none, s)
  else match s.tickets.get s.now (ticketKey ticket) with
    | none => (none, s)
    | some text =>
      ((codec.decode text).bind fun p ↦
          if p.purpose = expectedPurpose then some (p, text) else none,
        { s with tickets := s.tickets.del (ticketKey ticket) })

def findUser (s : State π) (p : Payload π) : Option Account :=
  (s.users.find? fun u ↦ u.id = p.userId ∧ u.orgId = p.orgId).filter fun u ↦
    u.active ∧ ∀ t ∈ u.sessionsValidFrom, t ≤ p.issuedAt

/-- `handleConnection`, up to the user. -/
def connect (s : State π) (ticket : String) : State π :=
  match consume codec s ticket "ssh" with
  | (none, s) => s
  | (some (p, text), s) =>
    match findUser s p with
    | none => s
    | some u => { s with notes := .admitted ticket u p.params text s.now :: s.notes }

def Note.receipt : Note π → Receipt String String
  | .issued ticket p text => .issued (ticketKey ticket) text p.issuedAt
  | .admitted ticket _ _ text time => .paid (ticketKey ticket) text time

def State.till (s : State π) : Till String String := ⟨s.tickets, s.now, s.notes.map Note.receipt⟩

def Note.admits (ticket : String) : Note π → Bool
  | .issued .. => false
  | .admitted t .. => t = ticket

def step (s : State π) : Event π → Option (State π)
  | .issue userId orgId purpose params ticket =>
    -- no ticket is drawn twice
    if s.till.receipts.any (Receipt.isIssued (ticketKey ticket)) then none
    else some ((issue codec s userId orgId purpose params ticket).toOption.getD s)
  | .connect ticket => some (connect codec s ticket)
  | .wait now => if s.now ≤ now then some { s with now } else none
  | .edit users => some { s with users }

/-- A socket is for whom its ticket was issued within the last half minute, who is active and has
not signed out since. -/
def Covers (notes : List (Note π)) : Note π → Prop
  | .issued .. => True
  | .admitted ticket u params text time => ∃ p, .issued ticket p text ∈ notes ∧ p.userId = u.id ∧
      p.orgId = u.orgId ∧ p.purpose = "ssh" ∧ p.params = params ∧ p.issuedAt ≤ time ∧
        time < p.issuedAt + ticketTtl ∧ u.active = true ∧ ∀ t ∈ u.sessionsValidFrom, t ≤ p.issuedAt

def Note.Right : Note π → Prop
  | .issued _ p text => codec.encode p = .ok text
  | .admitted _ u params text _ => ∃ p, codec.decode text = some p ∧ p.userId = u.id ∧
      p.orgId = u.orgId ∧ p.purpose = "ssh" ∧ p.params = params ∧ u.active = true ∧
        ∀ t ∈ u.sessionsValidFrom, t ≤ p.issuedAt

variable {codec} {s s' : State π} {e : Event π} {n : Note π} {ticket : String}

theorem ticketKey_inj {t : String} : ticketKey t = ticketKey ticket ↔ t = ticket :=
  String.append_right_inj _

theorem isPaid_receipt : n.receipt.isPaid (ticketKey ticket) = n.admits ticket := by
  cases n with
  | issued => rfl
  | admitted => exact decide_eq_decide.mpr ticketKey_inj

theorem till_connect : Till.Step ticketTtl s.till (connect codec s ticket).till ∧
    ∀ n ∈ (connect codec s ticket).notes, n ∈ s.notes ∨ n.Right codec := by
  by_cases hticket : ticket = ""
  · rw [connect, consume, if_pos hticket]
    exact ⟨.refl, fun _ ↦ .inl⟩
  cases hget : s.tickets.get s.now (ticketKey ticket) with
  | none =>
    simp only [connect, consume, if_neg hticket, hget]
    exact ⟨.refl, fun _ ↦ .inl⟩
  | some text =>
    simp only [connect, consume, if_neg hticket, hget]
    split
    · rename_i hs
      rw [← (Prod.mk.inj hs).2]
      exact ⟨.void _, fun _ ↦ .inl⟩
    · rename_i p text' t hs
      obtain ⟨hp, rfl⟩ := Prod.mk.inj hs
      obtain ⟨q, hdecode, hq⟩ := Option.bind_eq_some_iff.mp hp
      obtain ⟨hpurpose, hq⟩ := Option.ite_none_right_eq_some.mp hq
      obtain ⟨rfl, rfl⟩ := Prod.mk.inj (Option.some.inj hq)
      split
      · exact ⟨.void _, fun _ ↦ .inl⟩
      · rename_i u hu
        refine ⟨.pay hget, fun n hn ↦ (List.mem_cons.mp hn).symm.imp id ?_⟩
        rintro rfl
        obtain ⟨hfind, hu⟩ := Option.filter_eq_some_iff.mp hu
        have hid := List.find?_some hfind
        rw [decide_eq_true_iff] at hid hu
        exact ⟨q, hdecode, hid.1.symm, hid.2.symm, hpurpose, rfl, hu⟩

theorem till_step (hs : step codec s e = some s') : Till.Step ticketTtl s.till s'.till ∧
    ∀ n ∈ s'.notes, n ∈ s.notes ∨ n.Right codec := by
  cases e with
  | issue userId orgId purpose params ticket =>
    simp only [WsTicket.step] at hs
    split at hs
    · cases hs
    rename_i hnew
    obtain rfl := Option.some.inj hs
    unfold issue
    split
    · exact ⟨.refl, fun _ ↦ .inl⟩
    split
    · exact ⟨.refl, fun _ ↦ .inl⟩
    dsimp only
    split
    · exact ⟨.refl, fun _ ↦ .inl⟩
    rename_i text hencode
    refine ⟨.issue (Bool.eq_false_iff.mpr hnew), fun n hn ↦ (List.mem_cons.mp hn).symm.imp id ?_⟩
    rintro rfl
    exact hencode
  | connect ticket =>
    obtain rfl := Option.some.inj hs
    exact till_connect
  | wait now =>
    obtain ⟨hle, hs⟩ := Option.ite_none_right_eq_some.mp hs
    obtain rfl := Option.some.inj hs
    exact ⟨.wait hle, fun _ ↦ .inl⟩
  | edit users =>
    obtain rfl := Option.some.inj hs
    exact ⟨.refl, fun _ ↦ .inl⟩

/-- **A ticket admits one socket at most, of the user it was issued for.** -/
theorem run_admitsOnce {users : List Account} {now : Millis} {es : List (Event π)}
    (h : Run (step codec) free { users, now } es s) :
    (∀ ticket, s.notes.countP (Note.admits ticket) ≤ 1) ∧ ∀ n ∈ s.notes, Covers s.notes n := by
  obtain ⟨honce, hnotes⟩ := Till.run_keepsTill (fun _ ↦ rfl) (fun _ _ _ ↦ till_step) h rfl rfl
  refine ⟨fun ticket ↦ ?_, fun n hn ↦ ?_⟩
  · simpa only [isPaid_receipt] using honce (ticketKey ticket)
  cases n with
  | issued => trivial
  | admitted ticket u params text time =>
    obtain ⟨⟨q, hdecode, hid, horg, hpurpose, hparams, hu⟩, hpaid⟩ := hnotes _ hn
    obtain ⟨m, hm, hright, issuedAt, hreceipt, hle, hlt⟩ := hpaid _ _ _ rfl
    cases m with
    | admitted => cases hreceipt
    | issued t p =>
      obtain ⟨hkey, rfl, rfl⟩ := Receipt.issued.inj hreceipt
      obtain rfl := ticketKey_inj.mp hkey
      obtain rfl := Option.some.inj ((codec.decode_encode hright).symm.trans hdecode)
      exact ⟨p, hm, hid, horg, hpurpose, hparams, hle, hlt, hu⟩

def anasPayload : Payload Id := ⟨"ana", "org", "ssh", "request", 0⟩

def oneCodec : Codec Id where
  encode p := if p = anasPayload then .ok "v2:0" else .error ⟨500, "", none⟩
  decode text := if text = "v2:0" then some anasPayload else none
  decode_encode h := by
    split at h
    · cases h
      simp [*]
    · cases h

/-- A ticket that admits a socket a second later, and is then sent again. -/
theorem run_admitsOnce_ana : ∃ s,
    Run (step oneCodec) free { users := [{ id := "ana", orgId := "org" }], now := 0 }
      [.issue "ana" "org" "ssh" "request" "9f", .wait 1000, .connect "9f", .connect "9f"] s ∧
    s.notes.length = 2 ∧ (∀ ticket, s.notes.countP (Note.admits ticket) ≤ 1) ∧
      ∀ n ∈ s.notes, Covers s.notes n := by
  have h : exec (step oneCodec) { users := [{ id := "ana", orgId := "org" }], now := 0 }
    [.issue "ana" "org" "ssh" "request" "9f", .wait 1000, .connect "9f", .connect "9f"] =
      some _ := rfl
  exact ⟨_, run_of_exec h, rfl, run_admitsOnce (run_of_exec h)⟩

end Shellius.Terminal.WsTicket
