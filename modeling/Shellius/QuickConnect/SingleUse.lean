import Shellius.Lib.Voucher
import Shellius.QuickConnect.Targets

/-!
# Tickets of Quick Connect in use

`createTicket` and `consumeTicket`, called in any order and at any times, while the tables change.
`consumeTicket` takes a ticket out of Redis by the command that reads it, and refuses it afterwards
if it is somebody else's.  So Redis is a till whose vouchers are the tickets: one opens one
connection at most, for the user whom it was made out to, within a minute, and to the address that
was checked then.

A ticket that is drawn has not been drawn before.
-/

namespace Shellius.QuickConnect

open Lib

/-- What has come of a call. -/
inductive Note
  | issued (ticket : String) (user : Caller) (body : TicketBody) (text : String) (time : Millis)
  | redeemed (ticket : String) (userId orgId : Id) (connect : Connect) (text : String)
      (time : Millis)

def Note.redeems (ticket : String) : Note → Bool
  | .issued .. => false
  | .redeemed t .. => t = ticket

/-- The tables and Redis, the clock, and what has come of the calls, the last first. -/
structure State where
  store : Store
  now : Millis
  notes : List Note := []

def Note.receipt : Note → Receipt String String
  | .issued ticket _ _ text time => .issued (ticketKey ticket) text time
  | .redeemed ticket _ _ _ text time => .paid (ticketKey ticket) text time

def State.till (s : State) : Till String String :=
  ⟨s.store.tickets, s.now, s.notes.map Note.receipt⟩

inductive Event
  | create (user : Caller) (body : TicketBody) (via : Via) (personalHostId : Option Id)
      (ticket : String)
  | consume (ticket : String) (userId orgId : Id)
  | wait (now : Millis)
  | /-- Others write to the tables. -/
    edit (store : Store)

def step (env : Services) (s : State) : Event → Option State
  | .create user body via personalHostId ticket =>
    if s.till.receipts.any (Receipt.isIssued (ticketKey ticket)) then none
    else match createTicket env s.now s.store user body via personalHostId ticket with
      | (.ok t, store) =>
        let text := (store.tickets (ticketKey t)).elim "" Entry.value
        some { s with store, notes := .issued t user body text s.now :: s.notes }
      | (.error _, store) => some { s with store }
  | .consume ticket userId orgId =>
    match consumeTicket env s.now s.store ticket userId orgId with
    | (.ok connect, store) =>
      let text := (s.store.tickets (ticketKey ticket)).elim "" Entry.value
      some { s with store, notes := .redeemed ticket userId orgId connect text s.now :: s.notes }
    | (.error _, store) => some { s with store }
  | .wait now => if s.now ≤ now then some { s with now } else none
  | .edit store => some { s with store := { store with tickets := s.store.tickets } }

/-- A connection is made for whom the ticket was made out to, in time, and to the address that was
checked. -/
def Covers (env : Services) (notes : List Note) : Note → Prop
  | .issued .. => True
  | .redeemed ticket userId orgId connect text time => ∃ user body issuedAt target,
      .issued ticket user body text issuedAt ∈ notes ∧ user.userId = userId ∧ user.orgId = orgId ∧
        issuedAt ≤ time ∧ time < issuedAt + ticketTtl ∧ connect.displayHost = body.host ∧
          resolveTarget env body.host = .ok target ∧ connect.host = target.address ∧
            ∀ a ∈ target.ip :: target.addresses, targetAllowed env a = true

/-! ## Runs -/

/-- What a text in Redis is made of, and what is made of it. -/
def Note.Right (env : Services) : Note → Prop
  | .issued _ user body text _ => ∃ via personalHostId chosen target,
      resolveTarget env body.host = .ok target ∧
        env.encode (payload user body via personalHostId chosen target) = .ok text
  | .redeemed _ userId orgId connect text _ => ∃ p username auth, env.decode text = some p ∧
      p.userId = userId ∧ p.orgId = orgId ∧ connect = p.connect username auth

variable {env : Services} {s s' : State} {e : Event} {n : Note} {ticket : String}

theorem ticketKey_inj {t : String} (h : ticketKey t = ticketKey ticket) : t = ticket :=
  (String.append_right_inj _).mp h

theorem isPaid_receipt : n.receipt.isPaid (ticketKey ticket) = n.redeems ticket := by
  cases n with
  | issued => rfl
  | redeemed t => exact decide_eq_decide.mpr ⟨ticketKey_inj, congrArg ticketKey⟩

theorem tickets_createTicket {now : Millis} {s₀ s₁ : Store} {user : Caller} {body : TicketBody}
    {via : Via} {personalHostId : Option Id} {err : ApiError}
    (h : createTicket env now s₀ user body via personalHostId ticket = (.error err, s₁)) :
    s₁.tickets = s₀.tickets := by
  unfold createTicket at h
  split at h
  · rw [← (Prod.mk.inj h).2]
  · simp only at h
    split at h
    · rw [← (Prod.mk.inj h).2]
    · cases h

theorem exists_connect {s₀ : Store} {userId orgId : Id} {p : Payload} {connect : Connect}
    (h : redeem env s₀ userId orgId p = .ok connect) :
    ∃ username auth, connect = p.connect username auth := by
  unfold redeem at h
  split at h
  · exact ⟨_, _, (Except.ok.inj h).symm⟩
  split at h
  · exact ⟨_, _, (Except.ok.inj h).symm⟩
  split at h
  · split at h
    · cases h
    · exact ⟨_, _, (Except.ok.inj h).symm⟩
  · exact ⟨_, _, (Except.ok.inj h).symm⟩

section

variable {now : Millis} {s₀ s₁ : Store} {userId orgId : Id}

theorem consumeTicket_ok {connect : Connect}
    (h : consumeTicket env now s₀ ticket userId orgId = (.ok connect, s₁)) :
    ∃ raw p, s₀.tickets.get now (ticketKey ticket) = some raw ∧ env.decode raw = some p ∧
      p.userId = userId ∧ p.orgId = orgId ∧ (∃ username auth, connect = p.connect username auth) ∧
        s₁ = { s₀ with tickets := s₀.tickets.del (ticketKey ticket) } := by
  unfold consumeTicket at h
  split at h
  · cases h
  split at h
  · cases h
  rename_i raw hget
  simp only at h
  split at h
  · cases h
  rename_i p hdecode
  split at h
  · cases h
  · rename_i howner
    obtain ⟨hredeem, hs⟩ := Prod.mk.inj h
    rw [not_or, not_not, not_not] at howner
    exact ⟨raw, p, hget, hdecode, howner.1, howner.2, exists_connect hredeem, hs.symm⟩

theorem tickets_consumeTicket {err : ApiError}
    (h : consumeTicket env now s₀ ticket userId orgId = (.error err, s₁)) :
    s₁.tickets = s₀.tickets ∨ s₁.tickets = s₀.tickets.del (ticketKey ticket) := by
  unfold consumeTicket at h
  split at h
  · exact .inl (by rw [← (Prod.mk.inj h).2])
  split at h
  · exact .inl (by rw [← (Prod.mk.inj h).2])
  simp only at h
  split at h
  · exact .inr (by rw [← (Prod.mk.inj h).2])
  split at h
  · exact .inr (by rw [← (Prod.mk.inj h).2])
  · exact .inr (by rw [← (Prod.mk.inj h).2])

end

/-- A call is a step of the till, and what it notes is right. -/
theorem till_step (hs : step env s e = some s') : Till.Step ticketTtl s.till s'.till ∧
    ∀ n ∈ s'.notes, n ∈ s.notes ∨ n.Right env := by
  cases e with
  | create user body via personalHostId ticket =>
    simp only [QuickConnect.step] at hs
    split at hs
    · cases hs
    rename_i hnew
    split at hs
    · rename_i t store hcreate
      obtain ⟨rfl, chosen, target, text, -, hresolve, -, henc, rfl⟩ := createTicket_eq_ok.mp hcreate
      obtain rfl := Option.some.inj hs
      have htext : ((issued env s.now s.store user target t text).tickets (ticketKey t)).elim ""
          Entry.value = text := congrArg (Option.elim · "" Entry.value) Expiring.set_self
      simp only [htext]
      refine ⟨.issue (Bool.eq_false_iff.mpr hnew), fun n hn ↦ (List.mem_cons.mp hn).symm.imp id ?_⟩
      rintro rfl
      exact ⟨via, personalHostId, chosen, target, hresolve, henc⟩
    · rename_i store hcreate
      obtain rfl := Option.some.inj hs
      rw [State.till, State.till, tickets_createTicket hcreate]
      exact ⟨.refl, fun _ ↦ .inl⟩
  | consume ticket userId orgId =>
    simp only [QuickConnect.step] at hs
    split at hs
    · rename_i connect store hconsume
      obtain rfl := Option.some.inj hs
      obtain ⟨raw, p, hget, hdecode, huser, horg, ⟨username, auth, hconnect⟩, rfl⟩ :=
        consumeTicket_ok hconsume
      obtain ⟨entry, hentry, -, rfl⟩ := Expiring.get_eq_some.mp hget
      simp only [hentry, Option.elim_some]
      refine ⟨.pay hget, fun n hn ↦ (List.mem_cons.mp hn).symm.imp id ?_⟩
      rintro rfl
      exact ⟨p, username, auth, hdecode, huser, horg, hconnect⟩
    · rename_i store hconsume
      obtain rfl := Option.some.inj hs
      refine ⟨?_, fun _ ↦ .inl⟩
      rw [State.till, State.till]
      rcases tickets_consumeTicket hconsume with hsame | hdel
      · rw [hsame]
        exact .refl
      · rw [hdel]
        exact .void _
  | wait now =>
    obtain ⟨hle, hs⟩ := Option.ite_none_right_eq_some.mp hs
    obtain rfl := Option.some.inj hs
    exact ⟨.wait hle, fun _ ↦ .inl⟩
  | edit store =>
    obtain rfl := Option.some.inj hs
    exact ⟨.refl, fun _ ↦ .inl⟩

def State.Fresh (s : State) : Prop := s.store.tickets = (fun _ ↦ none) ∧ s.notes = []

end Shellius.QuickConnect
