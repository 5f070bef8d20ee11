import Shellius.Lib.Recent
import Shellius.Terminal.Ending

/-!
# The output of a terminal

What a session puts out goes to the ring buffer and to the sockets that are attached.  The
buffer keeps the longest end of the output that its rule allows: whole chunks, or the tail
of the last one if that is too large on its own.  A socket that attaches is sent the buffer
first, and then whatever comes, so that it has the end of the output without gap or
repetition.
-/

namespace Shellius.Terminal

open Lib

/-! ## The ring buffer -/

def kept (max : Nat) (l : List Chunk) : List Chunk :=
  if recent max l = [] then (l.getLast?.map fun c ↦ c.drop (c.length - max)).toList
  else recent max l

namespace RingBuffer

variable {max : Nat} {l out : List Chunk} {c : Chunk}

theorem shiftChunks_eq (max : Nat) (l : List Chunk) (c : Chunk) :
    shiftChunks max (l ++ [c]) (l ++ [c]).flatten.length =
      if recent max (l ++ [c]) = [] then ([c], c.length)
      else (recent max (l ++ [c]), (recent max (l ++ [c])).flatten.length) := by
  induction l with
  | nil =>
    rw [List.nil_append, List.flatten_singleton]
    by_cases hfits : [c].flatten.length ≤ max
    · rw [recent_of_length_le hfits, if_neg (List.cons_ne_nil c []), List.flatten_singleton]
      rfl
    · have hnil : recent max [c] = [] := if_neg hfits
      rw [hnil, if_pos rfl]
      rfl
  | cons d l ih =>
    have hne : l ++ [c] ≠ [] := List.concat_ne_nil c l
    obtain ⟨next, rest, hrest⟩ := List.exists_cons_of_ne_nil hne
    rw [List.cons_append]
    by_cases hfits : (d :: (l ++ [c])).flatten.length ≤ max
    · rw [recent_of_length_le hfits, if_neg (List.cons_ne_nil d _), hrest]
      exact if_neg (by rw [← hrest]; omega)
    · have hrecent : recent max (d :: (l ++ [c])) = recent max (l ++ [c]) := if_neg hfits
      have hsize : (d :: (l ++ [c])).flatten.length - d.length = (l ++ [c]).flatten.length := by
        rw [List.flatten_cons, List.length_append, Nat.add_sub_cancel_left]
      rw [hrecent, ← ih, ← hsize]
      conv_lhs => rw [hrest]
      rw [hrest]
      exact if_pos (by rw [← hrest]; omega)

theorem trimOnly_of_le {size : Nat} (h : size ≤ max) : trimOnly max l size = (l, size) := by
  unfold trimOnly
  split
  · exact if_neg (by omega)
  · rfl

theorem recent_kept (hc : c ≠ []) : recent max (kept max l ++ [c]) = recent max (l ++ [c]) := by
  unfold kept
  split
  · rename_i hnil
    cases l using List.reverseRecOn with
    | nil => rfl
    | append_singleton l d _ =>
      have hbig := recent_eq_nil_iff.mp hnil
      have hlen : (d.drop (d.length - max)).length = max := by
        rw [List.length_drop]
        omega
      have hpos := List.length_pos_of_ne_nil hc
      rw [← recent_snoc max (l ++ [d]) c, hnil, List.getLast?_concat]
      exact if_neg (by simp [hlen]; omega)
  · exact recent_snoc max l c

theorem push_kept (hc : c ≠ []) :
    push ⟨max, kept max l, (kept max l).flatten.length⟩ c =
      ⟨max, kept max (l ++ [c]), (kept max (l ++ [c])).flatten.length⟩ := by
  have hsize : (kept max l).flatten.length + c.length = (kept max l ++ [c]).flatten.length := by
    simp
  have hne : ¬ c.length = 0 := fun h ↦ hc (List.length_eq_zero_iff.mp h)
  unfold push
  rw [if_neg hne]
  dsimp only
  rw [hsize, shiftChunks_eq, recent_kept hc]
  by_cases hnil : recent max (l ++ [c]) = []
  · have hbig := recent_eq_nil_iff.mp hnil
    rw [if_pos hnil, trimOnly, if_pos hbig, kept, if_pos hnil, List.getLast?_concat]
    simp
  · rw [if_neg hnil, trimOnly_of_le (length_recent max _), kept, if_neg hnil]

theorem foldl_push (max : Nat) (out : List Chunk) :
    out.foldl push { maxBytes := max } =
      ⟨max, kept max (out.filter (· ≠ [])), (kept max (out.filter (· ≠ []))).flatten.length⟩ := by
  induction out using List.reverseRecOn with
  | nil => rfl
  | append_singleton out c ih =>
    rw [List.foldl_append, ih, List.foldl_cons, List.foldl_nil, List.filter_append]
    by_cases hc : c = []
    · simp [hc, push]
    · rw [push_kept hc, List.filter_singleton, decide_eq_true hc, cond_true]

theorem toBuffer_foldl_push (max : Nat) (out : List Chunk) :
    (out.foldl push { maxBytes := max }).toBuffer = (kept max (out.filter (· ≠ []))).flatten := by
  rw [foldl_push, toBuffer]
  simp

end RingBuffer

/-- What the trimming rule allows to be kept of an output: as much as the buffer holds, and
either whole chunks from the end, or the tail of the last chunk if that is larger than the
buffer. -/
def Allowed (max : Nat) (out : List Chunk) (content : Chunk) : Prop :=
  content.length ≤ max ∧ ((∃ l, l <:+ out ∧ content = l.flatten) ∨
    ∃ c ∈ (out.filter (· ≠ [])).getLast?, max < c.length ∧ content = c.drop (c.length - max))

/-- The longest end of an output that the trimming rule allows. -/
def LongestAllowed (max : Nat) (out : List Chunk) (content : Chunk) : Prop :=
  Allowed max out content ∧ ∀ other, Allowed max out other → other <:+ content

theorem longestAllowed_kept (max : Nat) (out : List Chunk) :
    LongestAllowed max out (kept max (out.filter (· ≠ []))).flatten := by
  have hsuffix : ∀ l, l <:+ out → l.flatten.length ≤ max →
      l.flatten <:+ (recent max (out.filter (· ≠ []))).flatten := by
    intro l hl hlen
    rw [← List.flatten_filter_ne_nil] at hlen ⊢
    exact flatten_suffix (suffix_recent (hl.filter _) hlen)
  unfold kept
  split
  · rename_i hnil
    cases hlast : (out.filter (· ≠ [])).getLast? with
    | none =>
      refine ⟨⟨Nat.zero_le max, .inl ⟨[], List.nil_suffix, rfl⟩⟩, ?_⟩
      rintro other ⟨hlen, ⟨l, hl, rfl⟩ | ⟨c, hc, -⟩⟩
      · rw [hnil] at hsuffix
        exact hsuffix l hl hlen
      · exact nomatch hlast.symm.trans hc
    | some c =>
      have hbig : max < c.length := by
        obtain ⟨l, hl⟩ := List.getLast?_eq_some_iff.mp hlast
        rw [hl] at hnil
        exact recent_eq_nil_iff.mp hnil
      have hlen : (c.drop (c.length - max)).length = max := by
        rw [List.length_drop]
        omega
      show LongestAllowed max out [c.drop (c.length - max)].flatten
      rw [List.flatten_singleton]
      refine ⟨⟨hlen.le, .inr ⟨c, hlast, hbig, rfl⟩⟩, ?_⟩
      rintro other ⟨hother, ⟨l, hl, rfl⟩ | ⟨d, hd, -, rfl⟩⟩
      · rw [hnil] at hsuffix
        rw [List.suffix_nil.mp (hsuffix l hl hother)]
        exact List.nil_suffix
      · obtain rfl := Option.some.inj (hlast.symm.trans hd)
        exact List.suffix_rfl
  · rename_i hne
    refine ⟨⟨length_recent max _, .inl ?_⟩, ?_⟩
    · obtain ⟨l, hl, he⟩ := List.suffix_filter_iff.mp (recent_suffix max (out.filter (· ≠ [])))
      refine ⟨l, hl, ?_⟩
      rw [he]
      exact List.flatten_filter_ne_nil
    · rintro other ⟨hlen, ⟨l, hl, rfl⟩ | ⟨c, hc, hbig, -⟩⟩
      · exact hsuffix l hl hlen
      · obtain ⟨l, hl⟩ := List.getLast?_eq_some_iff.mp hc
        rw [hl] at hne
        exact absurd (recent_eq_nil_iff.mpr hbig) hne

theorem LongestAllowed.eq_flatten {max : Nat} {out : List Chunk} {content : Chunk}
    (h : LongestAllowed max out content) (hfits : out.flatten.length ≤ max) : content = out.flatten := by
  have hall : out.flatten <:+ content := h.2 _ ⟨hfits, .inl ⟨out, List.suffix_rfl, rfl⟩⟩
  obtain ⟨l, hl, rfl⟩ | ⟨c, hc, hbig, -⟩ := h.1.2
  · exact (flatten_suffix hl).eq_of_length (Nat.le_antisymm (flatten_suffix hl).length_le hall.length_le)
  · have hmem : c ∈ out := List.mem_of_mem_filter (List.mem_of_getLast? hc)
    have hle := (List.sublist_flatten_of_mem hmem).length_le
    omega

/-! ## What a socket receives -/

def outputs (id : Id) (es : List Event) : List Chunk :=
  es.filterMap fun
    | .data j chunk => if j = id then some chunk else none
    | _ => none

/-- What has been sent to a socket for a session. -/
def Hub.received (s : Hub) (id : Id) (ws : Socket) : List Frame :=
  (s.sent.filter fun x ↦ x.sessionId = id ∧ x.socket = ws).map fun x ↦ x.frame

def Hub.socketsOf (s : Hub) (id : Id) : List Socket := (s.recs id).elim [] fun rec ↦ rec.sockets

/-- What a socket is sent first when it attaches. -/
def greeting (id : Id) (replay : Chunk) : List Frame :=
  .attached id replay.length :: if replay.length = 0 then [] else [.data replay]

namespace Hub

variable {ttl : Nat} {s t u : Hub} {id j : Id} {rec : Rec} {ws : Socket} {e : Event}
  {es fs : List Event}

/-- Nothing is put out for a session, no socket joins it, and those that stay are sent
nothing. -/
structure Quiet (id : Id) (s t : Hub) : Prop where
  buffer : (t.recs id).map Rec.buffer = (s.recs id).map Rec.buffer
  sockets : t.socketsOf id ⊆ s.socketsOf id
  received : ∀ ws ∈ t.socketsOf id, t.received id ws = s.received id ws

theorem Quiet.refl (s : Hub) : Quiet id s s := ⟨rfl, List.Subset.refl _, fun _ _ ↦ rfl⟩

theorem Quiet.trans (h : Quiet id s t) (h' : Quiet id t u) : Quiet id s u where
  buffer := h'.buffer.trans h.buffer
  sockets := List.Subset.trans h'.sockets h.sockets
  received ws hws := (h'.received ws hws).trans (h.received ws (h'.sockets hws))

theorem quiet_of_eq (hrecs : t.recs = s.recs) (hsent : t.sent = s.sent) : Quiet id s t := by
  constructor
  · rw [hrecs]
  · unfold socketsOf
    rw [hrecs]
    exact List.Subset.refl _
  · intro ws _
    unfold received
    rw [hsent]

theorem map_buffer_update {rec' : Rec} (hrec : s.recs j = some rec) (hbuffer : rec'.buffer = rec.buffer)
    (id : Id) : (Function.update s.recs j (some rec') id).map Rec.buffer = (s.recs id).map Rec.buffer := by
  by_cases hid : id = j
  · subst hid
    rw [Function.update_self, hrec, Option.map_some, Option.map_some, hbuffer]
  · rw [Function.update_of_ne hid]

theorem quiet_of_update {rec' : Rec} (hrec : s.recs j = some rec)
    (hrecs : t.recs = Function.update s.recs j (some rec')) (hbuffer : rec'.buffer = rec.buffer)
    (hsockets : rec'.sockets ⊆ rec.sockets) (hsent : t.sent = s.sent) : Quiet id s t := by
  constructor
  · rw [hrecs, map_buffer_update hrec hbuffer]
  · unfold socketsOf
    rw [hrecs]
    by_cases hid : id = j
    · subst hid
      rw [Function.update_self, hrec]
      exact hsockets
    · rw [Function.update_of_ne hid]
      exact List.Subset.refl _
  · intro ws _
    unfold received
    rw [hsent]

theorem quiet_assign {f : Rec → Rec} (hbuffer : ∀ rec, (f rec).buffer = rec.buffer)
    (hsockets : ∀ rec, (f rec).sockets = rec.sockets) (hrecs : t.recs = (s.assign j f).recs)
    (hsent : t.sent = s.sent) : Quiet id s t := by
  cases hrec : s.recs j with
  | none =>
    refine quiet_of_eq ?_ hsent
    rw [hrecs, assign, hrec]
    show Function.update s.recs j none = s.recs
    rw [← hrec, Function.update_eq_self]
  | some rec =>
    refine quiet_of_update hrec ?_ (hbuffer rec) (by rw [hsockets rec]; exact List.Subset.refl _) hsent
    rw [hrecs, assign_eq hrec]

theorem received_append {new : List Sent} (hsent : t.sent = s.sent ++ new) :
    t.received id ws = s.received id ws ++
      (new.filter fun x ↦ x.sessionId = id ∧ x.socket = ws).map fun x ↦ x.frame := by
  unfold received
  rw [hsent, List.filter_append, List.map_append]

theorem quiet_endSession (s : Hub) (j : Id) (reason : String) (extra : List (String × String)) :
    Quiet id s (s.endSession j reason extra) := by
  obtain ⟨-, he⟩ | ⟨rec, hlive, he⟩ := endSession_cases s j reason extra
  · rw [he]
    exact .refl s
  · rw [he]
    by_cases hid : id = j
    · subst hid
      constructor
      · dsimp only
        rw [Function.update_self, hlive.made]
        rfl
      · unfold socketsOf
        dsimp only
        rw [Function.update_self]
        exact List.nil_subset _
      · intro ws hws
        unfold socketsOf at hws
        dsimp only at hws
        rw [Function.update_self] at hws
        exact absurd hws List.not_mem_nil
    · constructor
      · dsimp only
        rw [Function.update_of_ne hid]
      · unfold socketsOf
        dsimp only
        rw [Function.update_of_ne hid]
        exact List.Subset.refl _
      · intro ws _
        rw [received_append rfl, List.filter_eq_nil_iff.mpr, List.map_nil, List.append_nil]
        intro x hx
        obtain ⟨ws', -, rfl⟩ := List.mem_map.mp hx
        simp [Ne.symm hid]

theorem chained_quiet : Chained (Quiet id) where
  refl := .refl
  trans := .trans
  endSession := quiet_endSession
  refresh _ j expiresAt :=
    quiet_assign (j := j) (f := fun rec ↦ { rec with accessRequestExpiresAt := some expiresAt })
      (fun _ ↦ rfl) (fun _ ↦ rfl) rfl rfl
  checks _ _ := quiet_of_eq rfl rfl

inductive Loud (s : Hub) : Event → Hub → Prop where
  | create {j : Id} {owner : Owner} {recording : Bool} {arId : Option Id}
      {arExpiresAt : Option Millis} : s.recs j = none →
      Loud s (.create j owner recording arId arExpiresAt) (s.create j owner recording arId arExpiresAt)
  | data {j : Id} {chunk : Chunk} {rec : Rec} : s.recs j = some rec →
      Loud s (.data j chunk) (s.onData j rec chunk)
  | addSocket {j : Id} {ws : Socket} : Loud s (.addSocket j ws) (s.addSocket j ws)
  | attach {j : Id} {ws : Socket} {owner : Owner} {t : Hub} : s.attach j ws owner = .ok t →
      Loud s (.attach j ws owner) t

theorem quiet_resume {i : Nat} {ok : Bool} (ht : s.resume i ok = some t) : Quiet id s t := by
  unfold resume at ht
  split at ht
  · cases ht
  · rename_i e he
    have hreleased : ∀ {t : Hub}, t.recs =
          (s.assign e.sessionId fun rec ↦ { rec with recordingWriter := none }).recs →
        t.sent = s.sent → Quiet id s t :=
      quiet_assign (j := e.sessionId) (f := fun rec ↦ { rec with recordingWriter := none })
        (fun _ ↦ rfl) fun _ ↦ rfl
    dsimp only at ht
    split at ht
    · split at ht
      · obtain rfl := Option.some.inj ht
        exact quiet_of_eq rfl rfl
      · obtain rfl := Option.some.inj ht
        exact hreleased rfl rfl
    · obtain rfl := Option.some.inj ht
      exact hreleased rfl rfl
    · obtain rfl := Option.some.inj ht
      exact quiet_of_eq rfl rfl

theorem quiet_detach (s : Hub) (ttl : Nat) (j : Id) (ws : Socket) : Quiet id s (s.detach ttl j ws) := by
  obtain ⟨-, he⟩ | ⟨rec, hrec, -, -, ⟨-, he⟩ | ⟨-, -, he⟩⟩ := detach_cases s ttl j ws
  · rw [he]
    exact .refl s
  · rw [he]
    exact quiet_of_update hrec rfl rfl List.erase_subset rfl
  · rw [he]
    exact quiet_of_update hrec rfl rfl (List.nil_subset _) rfl

theorem loud_or_quiet (ht : step ttl s e = some t) :
    Loud s e t ∨ ∀ id, outputs id [e] = [] ∧ Quiet id s t := by
  cases e with
  | create j owner recording arId arExpiresAt =>
    rw [step] at ht
    split at ht
    · rename_i hfree
      obtain rfl := Option.some.inj ht
      exact .inl (.create hfree)
    · cases ht
  | data j chunk =>
    obtain ⟨rec, hrec, rfl⟩ := Option.map_eq_some_iff.mp ht
    exact .inl (.data hrec)
  | addSocket j ws =>
    obtain rfl := Option.some.inj ht
    exact .inl .addSocket
  | attach j ws owner =>
    rw [step] at ht
    split at ht
    · rename_i hok
      obtain rfl := Option.some.inj ht
      exact .inl (.attach hok)
    · obtain rfl := Option.some.inj ht
      exact .inr fun _ ↦ ⟨rfl, .refl s⟩
  | detach j ws =>
    obtain rfl := Option.some.inj ht
    exact .inr fun _ ↦ ⟨rfl, quiet_detach s ttl j ws⟩
  | endSession j reason extra =>
    obtain rfl := Option.some.inj ht
    exact .inr fun _ ↦ ⟨rfl, quiet_endSession s j reason extra⟩
  | closeOwned j owner =>
    rw [step] at ht
    split at ht
    · rename_i hok
      obtain rfl := Option.some.inj ht
      exact .inr fun _ ↦ ⟨rfl, chained_quiet.closeOwned hok⟩
    · obtain rfl := Option.some.inj ht
      exact .inr fun _ ↦ ⟨rfl, .refl s⟩
  | resume i ok => exact .inr fun _ ↦ ⟨rfl, quiet_resume ht⟩
  | fire timer =>
    rw [step] at ht
    split at ht
    · obtain rfl := Option.some.inj ht
      refine .inr fun id ↦ ⟨rfl, ?_⟩
      have hrest : Quiet id s { s with timers := s.timers.filter (· ≠ timer) } := quiet_of_eq rfl rfl
      exact hrest.trans (quiet_endSession _ _ _ _)
    · cases ht
  | checkExpiries =>
    obtain rfl := Option.some.inj ht
    exact .inr fun _ ↦ ⟨rfl, chained_quiet.checkExpiries s⟩
  | checked i ars => exact .inr fun _ ↦ ⟨rfl, chained_quiet.checked ht⟩
  | endAllForUser userId orgId reason =>
    obtain rfl := Option.some.inj ht
    exact .inr fun _ ↦ ⟨rfl, chained_quiet.endAllForUser s userId orgId reason⟩
  | endAll reason =>
    obtain rfl := Option.some.inj ht
    exact .inr fun _ ↦ ⟨rfl, chained_quiet.endAll s reason⟩
  | tick ms =>
    obtain rfl := Option.some.inj ht
    exact .inr fun _ ↦ ⟨rfl, quiet_of_eq rfl rfl⟩
  | close ws =>
    obtain rfl := Option.some.inj ht
    exact .inr fun _ ↦ ⟨rfl, quiet_of_eq rfl rfl⟩

theorem buffer_step (ht : step ttl s e = some t) (id : Id) :
    (t.recs id).map Rec.buffer = (s.recs id).map (fun rec ↦ (outputs id [e]).foldl .push rec.buffer) ∨
      s.recs id = none ∧ outputs id [e] = [] ∧
        (t.recs id).map Rec.buffer = some { maxBytes := ringBufferMaxBytes } := by
  obtain hloud | hquiet := loud_or_quiet ht
  · cases hloud with
    | @create j _ _ _ _ hfree =>
      dsimp only [create]
      by_cases hid : id = j
      · subst hid
        refine .inr ⟨hfree, rfl, ?_⟩
        rw [Function.update_self]
        rfl
      · refine .inl ?_
        rw [Function.update_of_ne hid]
        rfl
    | @data j chunk rec hrec =>
      refine .inl ?_
      dsimp only [onData, fanout]
      rw [assign_eq hrec]
      dsimp only
      by_cases hid : id = j
      · subst hid
        rw [Function.update_self, hrec]
        simp [outputs]
      · have hout : outputs id [.data j chunk] = [] := by simp [outputs, Ne.symm hid]
        rw [Function.update_of_ne hid, hout]
        rfl
    | @addSocket j ws =>
      refine .inl ?_
      obtain ⟨-, he⟩ | ⟨rec, hlive, he⟩ := addSocket_cases s j ws
      · rw [he]
        rfl
      · rw [he]
        refine map_buffer_update hlive.made ?_ id
        rfl
    | attach hok =>
      refine .inl ?_
      obtain ⟨rec, _, howned, -, rfl⟩ := attach_ok hok
      refine map_buffer_update (live_of_requireOwned howned).1.made ?_ id
      rfl
  · obtain ⟨hout, hq⟩ := hquiet id
    rw [hout]
    exact .inl hq.buffer

theorem outputs_of_none (ht : step ttl s e = some t) (hnone : s.recs id = none) : outputs id [e] = [] := by
  obtain hloud | hquiet := loud_or_quiet ht
  · cases hloud with
    | create _ => rfl
    | @data j chunk rec hrec =>
      have hid : j ≠ id := by
        rintro rfl
        exact nomatch hnone.symm.trans hrec
      simp [outputs, hid]
    | addSocket => rfl
    | attach _ => rfl
  · exact (hquiet id).1

theorem filter_fanout {sockets closed : List Socket} {frame : Frame} (hnodup : sockets.Nodup)
    (hws : ws ∈ sockets) (hopen : ws ∉ closed) :
    (((sockets.filter (· ∉ closed)).map fun x ↦ (⟨x, id, frame⟩ : Sent)).filter
      fun x ↦ x.sessionId = id ∧ x.socket = ws) = [⟨ws, id, frame⟩] := by
  have hone : (sockets.filter (· ∉ closed)).filter (· = ws) = [ws] := by
    rw [List.filter_eq, List.count_eq_one_of_mem (hnodup.filter _)]
    · rfl
    · exact List.mem_filter.mpr ⟨hws, decide_eq_true hopen⟩
  rw [List.filter_map]
  simp only [Function.comp_def, true_and]
  rw [hone, List.map_singleton]

/-- A socket that is attached and open is sent what the session puts out. -/
theorem received_step (hs : s.Sound ttl) (ht : step ttl s e = some t) (hin : ws ∈ t.socketsOf id)
    (hopen : ws ∉ t.closed) (hne : ∀ owner, e ≠ .attach id ws owner) :
    t.received id ws = s.received id ws ++ (outputs id [e]).map Frame.data := by
  obtain hloud | hquiet := loud_or_quiet ht
  · cases hloud with
    | create hfree => exact (List.append_nil _).symm
    | @data j chunk rec hrec =>
      have hsent : (s.onData j rec chunk).sent = s.sent ++
          (rec.sockets.filter (· ∉ s.closed)).map fun x ↦ ⟨x, j, .data chunk⟩ := rfl
      rw [received_append hsent]
      congr 1
      by_cases hid : j = id
      · subst hid
        have hws : ws ∈ rec.sockets := by
          unfold socketsOf onData at hin
          rw [assign_eq hrec] at hin
          dsimp only [fanout] at hin
          rw [Function.update_self] at hin
          exact hin
        have hnodup : rec.sockets.Nodup := (hs.made hrec).sockets
        have hclosed : ws ∉ s.closed := hopen
        rw [filter_fanout hnodup hws hclosed]
        simp [outputs]
      · rw [List.filter_eq_nil_iff.mpr]
        · simp [outputs, hid]
        · intro x hx
          obtain ⟨ws', -, rfl⟩ := List.mem_map.mp hx
          simp [hid]
    | @addSocket j ws' =>
      have hsent : (s.addSocket j ws').sent = s.sent := by
        obtain ⟨-, he⟩ | ⟨rec, -, he⟩ := addSocket_cases s j ws'
        · rw [he]
        · rw [he]
      unfold received
      rw [hsent]
      exact (List.append_nil _).symm
    | @attach j ws' owner _ hok =>
      obtain ⟨rec, frames, -, -, rfl⟩ := attach_ok hok
      rw [received_append rfl]
      congr 1
      have hother : ¬ (j = id ∧ ws' = ws) := by
        rintro ⟨rfl, rfl⟩
        exact hne owner rfl
      split
      · rfl
      · rw [List.filter_eq_nil_iff.mpr]
        · rfl
        · intro x hx
          obtain ⟨frame, -, rfl⟩ := List.mem_map.mp hx
          simpa using hother
  · obtain ⟨hout, hq⟩ := hquiet id
    rw [hout, hq.received ws hin]
    exact (List.append_nil _).symm

end Hub

/-! ## Runs -/

section

variable {ttl : Nat} {s t u : Hub} {id : Id} {rec : Rec} {ws : Socket} {e : Event}
  {es fs : List Event}

theorem outputs_append (id : Id) (es fs : List Event) :
    outputs id (es ++ fs) = outputs id es ++ outputs id fs := List.filterMap_append

theorem run_buffer (hr : Run (step ttl) free ({} : Hub) es s) (id : Id) :
    (s.recs id = none → outputs id es = []) ∧
      ∀ rec, s.recs id = some rec →
        rec.buffer = (outputs id es).foldl .push { maxBytes := ringBufferMaxBytes } := by
  induction hr with
  | nil => exact ⟨fun _ ↦ rfl, fun _ h ↦ nomatch h⟩
  | @snoc es s t e _ hstep _ ih =>
    rw [outputs_append, List.foldl_append]
    obtain hbuffer | ⟨hnone, hout, hnew⟩ := Hub.buffer_step hstep id
    · cases hrec : s.recs id with
      | none =>
        rw [hrec] at hbuffer
        have htnone : t.recs id = none := Option.map_eq_none_iff.mp hbuffer
        refine ⟨fun _ ↦ ?_, fun rec h ↦ nomatch htnone.symm.trans h⟩
        rw [ih.1 hrec, Hub.outputs_of_none hstep hrec]
        rfl
      | some rec =>
        rw [hrec, Option.map_some, ih.2 rec hrec] at hbuffer
        constructor
        · intro h
          rw [h] at hbuffer
          cases hbuffer
        · intro rec' h
          rw [h] at hbuffer
          exact Option.some.inj hbuffer
    · rw [ih.1 hnone, hout]
      constructor
      · exact fun _ ↦ rfl
      · intro rec h
        rw [h] at hnew
        exact Option.some.inj hnew

/-- In the state after a step a socket is attached and open, and it has not been attached once
more. -/
def Stays (id : Id) (ws : Socket) (_ : Hub) (e : Event) (t : Hub) : Prop :=
  ws ∈ t.socketsOf id ∧ ws ∉ t.closed ∧ ∀ owner, e ≠ .attach id ws owner

theorem run_received (hs : s.Sound ttl) (hr : Run (step ttl) (Stays id ws) s fs t) :
    t.received id ws = s.received id ws ++ (outputs id fs).map Frame.data := by
  induction hr with
  | nil => exact (List.append_nil _).symm
  | snoc hrun hstep hstays ih =>
    rw [Hub.received_step (hs.run hrun.forget).1 hstep hstays.1 hstays.2.1 hstays.2.2, ih,
      outputs_append, List.map_append, List.append_assoc]

theorem received_attach {owner : Owner} (hrec : s.recs id = some rec)
    (ht : s.attach id ws owner = .ok t) (hopen : ws ∉ s.closed) :
    t.received id ws = s.received id ws ++ greeting id rec.buffer.toBuffer := by
  obtain ⟨rec', frames, howned, rfl, rfl⟩ := Hub.attach_ok ht
  obtain rfl := Option.some.inj (hrec.symm.trans (Hub.live_of_requireOwned howned).1.made)
  rw [Hub.received_append rfl, if_neg hopen]
  congr 1
  show (List.filter _ ((greeting id rec.buffer.toBuffer).map _)).map _ = _
  rw [List.filter_eq_self.mpr]
  · rw [List.map_map]
    exact List.map_id _
  · intro x hx
    obtain ⟨frame, -, rfl⟩ := List.mem_map.mp hx
    simp

/-- **The ring buffer has the longest end of the output that its rule allows, and a socket
that attaches receives exactly the buffer and then, as long as it stays, whatever the session
puts out.**  The socket that a session begins with is added to it without a replay, when
nothing has been put out yet; it receives all there is. -/
theorem run_output (hr : Run (step ttl) free ({} : Hub) es s) (hrec : s.recs id = some rec) :
    LongestAllowed ringBufferMaxBytes (outputs id es) rec.buffer.toBuffer ∧
    ((outputs id es).flatten.length ≤ ringBufferMaxBytes →
      rec.buffer.toBuffer = (outputs id es).flatten) ∧
    (∀ ws owner t fs u, s.attach id ws owner = .ok t → ws ∉ s.closed →
      Run (step ttl) (Stays id ws) t fs u →
      u.received id ws = s.received id ws ++ greeting id rec.buffer.toBuffer ++
        (outputs id fs).map .data) ∧
    ∀ ws fs u, Run (step ttl) (Stays id ws) (s.addSocket id ws) fs u →
      u.received id ws = s.received id ws ++ (outputs id fs).map .data := by
  have hs : s.Sound ttl := (sound_empty.run hr).1
  have hcontent : LongestAllowed ringBufferMaxBytes (outputs id es) rec.buffer.toBuffer := by
    rw [(run_buffer hr id).2 rec hrec, RingBuffer.toBuffer_foldl_push]
    exact longestAllowed_kept ringBufferMaxBytes (outputs id es)
  refine ⟨hcontent, hcontent.eq_flatten, ?_, ?_⟩
  · intro ws owner t fs u ht hopen hu
    rw [run_received (hs.follows (Hub.follows_attach hs ht)) hu, received_attach hrec ht hopen]
  · intro ws fs u hu
    rw [run_received (hs.follows (Hub.follows_addSocket hs id ws)) hu]
    congr 1
    unfold Hub.received
    obtain ⟨-, he⟩ | ⟨rec', -, he⟩ := Hub.addSocket_cases s id ws
    · rw [he]
    · rw [he]

/-- Two chunks of output, of which a socket that attaches in between gets the first as a
replay. -/
theorem run_output_twoSockets : ∃ s t u,
    Run (step 900) free ({} : Hub) [.create "session" ⟨"user", "org"⟩ false none none,
      .addSocket "session" 1, .data "session" [104, 105]] s ∧
    s.attach "session" 2 ⟨"user", "org"⟩ = .ok t ∧
    Run (step 900) free t [.data "session" [33]] u ∧
    u.received "session" 2 = [.attached "session" 2, .data [104, 105], .data [33]] := by
  have h : exec (step 900) ({} : Hub) [.create "session" ⟨"user", "org"⟩ false none none,
      .addSocket "session" 1, .data "session" [104, 105]] = some _ := rfl
  have hr := run_of_exec h
  refine ⟨_, _, _, hr, rfl, .single rfl trivial, ?_⟩
  rw [(run_output hr rfl).2.2.1 2 ⟨"user", "org"⟩ _ [.data "session" [33]] _ rfl (by decide)
    (.single rfl ⟨by decide, by decide, fun _ h ↦ nomatch h⟩)]
  rfl

end

end Shellius.Terminal
