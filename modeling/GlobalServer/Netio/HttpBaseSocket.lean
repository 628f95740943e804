import GlobalServer.Netio.HttpMessage

/-!
# HTTP sockets

`slience/netio/http_base_socket.hpp`: HttpBaseSocket reads into a buffer and has
`_CutMsgPack` cut each read into messages for `OnReceiveData`. The condition that
is to tell a complete message holds of every one: a read never leaves a part of
a message behind, it hands it over.
-/

namespace GlobalServer.Http

open Bytes (Fault)
open HttpBaseMsg

/-- What comes of reads: `_reader.httpmsg`, and the messages that OnReceiveData was called with; nothing, as long as the
loop has not ended. -/
abbrev Received := Option (Except Fault (HttpBaseMsg × List HttpBaseMsg))

def Received.after (l : List HttpBaseMsg) (r : Received) : Received := r.map fun r => r.map fun r => (r.1, l ++ r.2)

/-- `n` rounds of `_CutMsgPack` -/
def cutMsgPack (k : HttpMsgType) : Nat → HttpBaseMsg → List UInt8 → Received
  | 0, _, _ => none
  | n + 1, httpmsg, buf =>
    match k.parse httpmsg buf with
    | .error e => some (.error e)
    | .ok (httpmsg, copyLen) =>
      let (httpmsg, received) :=
        if copyLen = 0 ∨ copyLen ≤ buf.length then (k.clear, [httpmsg]) else (httpmsg, [])
      if buf.length - copyLen = 0 then some (.ok (httpmsg, received))
      else Received.after received (cutMsgPack k n httpmsg (buf.drop copyLen))

/-- `_ReadHandler` with one read after the other. As many rounds as bytes are enough for each. -/
def readAll (k : HttpMsgType) : HttpBaseMsg → List (List UInt8) → Received
  | httpmsg, [] => some (.ok (httpmsg, []))
  | httpmsg, buf :: reads =>
    match cutMsgPack k buf.length httpmsg buf with
    | some (.ok (httpmsg, received)) => Received.after received (readAll k httpmsg reads)
    | r => r

def Complete (s : HttpBaseMsg) (m : Message) : Prop := s.buffer = m.bytes ∧ s.getBody = m.body

/-- The reads hand over the messages, each once, complete and in their order. -/
def HttpMsgType.Delivers (k : HttpMsgType) (reads : List (List UInt8)) (ms : List Message) : Prop :=
  ∃ s received, readAll k k.clear reads = some (.ok (s, received)) ∧ List.Forall₂ Complete received ms

/-! ## One message -/

theorem Parsed.after_eq_ok {p : Parsed} {n m : Nat} {s : HttpBaseMsg} (h : p.after n = .ok (s, m)) :
    ∃ c, p = .ok (s, c) ∧ m = n + c := by
  cases p with
  | error e => cases h
  | ok r =>
    obtain ⟨t, c⟩ := r
    cases h
    exact ⟨c, rfl, rfl⟩

theorem parse_clear (k : HttpMsgType) {buf : List UInt8} (hb : buf ≠ []) {s : HttpBaseMsg} {n : Nat}
    (h : k.parse k.clear buf = .ok (s, n)) : s.buffer = buf.take n ∧ 0 < n ∧ n ≤ buf.length := by
  have hpos : 0 < n := by
    obtain ⟨b, bs, rfl⟩ := List.exists_cons_of_ne_nil hb
    rw [k.parse_cons k.inHead_clear] at h
    obtain ⟨c, -, rfl⟩ := Parsed.after_eq_ok h
    omega
  obtain ⟨h₁, h₂, h₃, h₄, h₅⟩ := k.eatAll_keeps (.inl k.inHead_clear) buf
  rw [k.parse_eatAll] at h
  obtain ⟨c, hp, rfl⟩ := Parsed.after_eq_ok h
  clear h
  generalize k.eatAll k.clear buf = e at *
  obtain ⟨t, r⟩ := e
  rw [k.buffer_clear, List.nil_append] at h₄
  dsimp only at *
  subst h₄
  rw [List.length_append, Nat.add_sub_cancel] at *
  by_cases hr : r = []
  · subst hr
    cases (k.parse_nil h₁).symm.trans hp
    exact ⟨by simp, hpos, by simp⟩
  · rw [k.parse_of_body (h₅ hr), parseBody_behind (h₂.trans k.bodysize_clear) (h₅ hr) hr] at hp
    cases hc : t.checkContentLen with
    | error e =>
      rw [hc] at hp
      cases hp
    | ok len =>
      rw [hc, Except.ok_bind] at hp
      split at hp
      · cases hp
        exact ⟨by simp, hpos, by simp⟩
      · split at hp
        · cases hp
        · cases hp
          refine ⟨?_, hpos, by omega⟩
          rw [List.take_length_add_append]
          simp [inBody, HttpBaseMsg.write]

theorem getBody_inBody {s : HttpBaseMsg} (hb : s.body = ⟨0, 0⟩) {len : Int} {r : List UInt8} (hr : r ≠ []) :
    (s.inBody len r).getBody = if (r.length : Int) = len then r else [] := by
  have hpos := List.length_pos_iff.mpr hr
  unfold HttpBaseMsg.getBody inBody
  rw [hb]
  split
  · simp [HttpBaseMsg.write, hr]
  · simp

/-- A message and the bytes behind it: it is handed over complete just when nothing follows its head, or when the length
that is read is that of its body. -/
theorem parse_complete_iff (k : HttpMsgType) (m : Message) (x : List UInt8) :
    (∃ s n, k.parse k.clear (m.bytes ++ x) = .ok (s, n) ∧ Complete s m) ↔
      (m.body = [] ∧ x = []) ∨ contentLen m.headers = .ok m.body.length := by
  obtain ⟨s, hs, he⟩ := eatAll_head k m
  rw [Message.bytes, List.append_assoc, k.parse_eatAll, he, k.parse_of_body hs.flag]
  by_cases hr : m.body ++ x = []
  · obtain ⟨hb, hx⟩ := List.append_eq_nil_iff.mp hr
    refine iff_of_true ⟨s, _, by rw [hr, parseBody, if_pos rfl]; rfl, ?_, ?_⟩ (.inl ⟨hb, hx⟩)
    · rw [Message.bytes, hb, List.append_nil, hs.buffer]
    · rw [HttpBaseMsg.getBody, hs.body, if_pos rfl, hb]
  · have hne : ¬ (m.body = [] ∧ x = []) := fun h => hr (List.append_eq_nil_iff.mpr h)
    rw [parseBody_behind hs.bodysize hs.flag hr, hs.length, or_iff_right hne]
    cases hcl : contentLen m.headers with
    | error e =>
      refine iff_of_false (fun h => ?_) (fun h => by cases h)
      obtain ⟨t, n, h, -⟩ := h
      cases h
    | ok len =>
      rw [Except.ok_bind, Except.ok.injEq]
      rcases lt_trichotomy len 0 with hneg | rfl | hpos
      · rw [if_neg hneg.ne, if_pos hneg]
        refine iff_of_false (fun h => ?_) (by omega)
        obtain ⟨t, n, h, -⟩ := h
        cases h
      · rw [if_pos rfl, Parsed.after_ok]
        simp only [Except.ok.injEq, Prod.mk.injEq, and_assoc, exists_and_left, exists_eq_left', Complete]
        rw [hs.buffer, Message.bytes, HttpBaseMsg.getBody, hs.body, if_pos rfl, List.self_eq_append_right]
        refine ⟨fun h => by simp [h.1], fun h => ?_⟩
        have hb : m.body = [] := List.length_eq_zero_iff.mp (by omega)
        exact ⟨hb, hb.symm⟩
      · rw [if_neg hpos.ne', if_neg (by omega), Parsed.after_ok]
        simp only [Except.ok.injEq, Prod.mk.injEq, and_assoc, exists_and_left, exists_eq_left', Complete]
        generalize hrd : (m.body ++ x).take len.toNat = r
        have hrne : r ≠ [] := by
          rw [← hrd]
          exact fun h => (List.take_eq_nil_iff.mp h).elim (by omega) hr
        rw [getBody_inBody hs.body hrne, show (s.inBody len r).buffer = s.buffer ++ r from rfl, hs.buffer, Message.bytes,
          List.append_cancel_left_eq]
        constructor
        · intro h
          obtain ⟨rfl, h⟩ := h
          split at h
          · omega
          · exact absurd h.symm hrne
        · intro h
          obtain rfl : r = m.body := by
            rw [← hrd, show len.toNat = m.body.length by omega, List.take_left]
          exact ⟨rfl, if_pos h.symm⟩

/-! ## One read -/

theorem Received.after_eq_ok {l : List HttpBaseMsg} {r : Received} {s : HttpBaseMsg} {received : List HttpBaseMsg}
    (h : r.after l = some (.ok (s, received))) : ∃ l', r = some (.ok (s, l')) ∧ received = l ++ l' := by
  rcases r with - | (e | ⟨t, l'⟩)
  · cases h
  · cases h
  · cases h
    exact ⟨l', rfl, rfl⟩

theorem cutMsgPack_clear (k : HttpMsgType) (n : Nat) {buf : List UInt8} (hb : buf ≠ []) :
    cutMsgPack k (n + 1) k.clear buf = match k.parse k.clear buf with
      | .error e => some (.error e)
      | .ok (s, c) => if buf.drop c = [] then some (.ok (k.clear, [s]))
        else Received.after [s] (cutMsgPack k n k.clear (buf.drop c)) := by
  rw [cutMsgPack]
  cases hp : k.parse k.clear buf with
  | error e => rfl
  | ok r =>
    obtain ⟨s, c⟩ := r
    obtain ⟨-, -, hc⟩ := parse_clear k hb hp
    simp only [if_pos (show c = 0 ∨ c ≤ buf.length from .inr hc), List.drop_eq_nil_iff, Nat.sub_eq_zero_iff_le]

theorem cutMsgPack_ends (k : HttpMsgType) {n : Nat} {buf : List UInt8} (hb : buf ≠ []) (hn : buf.length ≤ n) :
    (cutMsgPack k n k.clear buf).isSome := by
  induction n generalizing buf with
  | zero => exact absurd (List.length_eq_zero_iff.mp (Nat.le_zero.mp hn)) hb
  | succ n ih =>
    rw [cutMsgPack_clear k n hb]
    cases hp : k.parse k.clear buf with
    | error e => rfl
    | ok r =>
      obtain ⟨s, c⟩ := r
      obtain ⟨-, hc, -⟩ := parse_clear k hb hp
      dsimp only
      split
      · rfl
      · rename_i hrest
        rw [Received.after, Option.isSome_map]
        exact ih hrest (by rw [List.length_drop]; omega)

theorem cutMsgPack_state (k : HttpMsgType) {n : Nat} {buf : List UInt8} (hb : buf ≠ []) {s : HttpBaseMsg}
    {received : List HttpBaseMsg} (h : cutMsgPack k n k.clear buf = some (.ok (s, received))) : s = k.clear := by
  induction n generalizing buf received with
  | zero => cases h
  | succ n ih =>
    rw [cutMsgPack_clear k n hb] at h
    split at h
    · cases h
    · split at h
      · cases h
        rfl
      · rename_i hrest
        obtain ⟨l, hl, -⟩ := Received.after_eq_ok h
        exact ih hrest hl

/-- The bytes of messages sent back to back. -/
def stream (ms : List Message) : List UInt8 := (ms.map Message.bytes).flatten

theorem stream_cons (m : Message) (ms : List Message) : stream (m :: ms) = m.bytes ++ stream ms := rfl

theorem Message.bytes_ne_nil (m : Message) : m.bytes ≠ [] := by simp [Message.bytes, Message.head, Message.startLine]

theorem stream_eq_nil {ms : List Message} : stream ms = [] ↔ ms = [] := by
  cases ms with
  | nil => exact iff_of_true rfl rfl
  | cons m ms => simp [stream_cons, m.bytes_ne_nil]

/-- Messages that one read can bring: the length that is read is that of the body, except where the last has none. -/
def InOneRead : List Message → Prop
  | [] => True
  | m :: ms => ((m.body = [] ∧ ms = []) ∨ contentLen m.headers = .ok m.body.length) ∧ InOneRead ms

theorem inOneRead_of_cutMsgPack (k : HttpMsgType) {n : Nat} {buf : List UInt8} (hb : buf ≠ []) {ms : List Message}
    {s : HttpBaseMsg} {received : List HttpBaseMsg} (h : cutMsgPack k n k.clear buf = some (.ok (s, received)))
    (hall : List.Forall₂ Complete received ms) : buf = stream ms ∧ InOneRead ms := by
  induction n generalizing buf ms received with
  | zero => cases h
  | succ n ih =>
    rw [cutMsgPack_clear k n hb] at h
    split at h
    · cases h
    · rename_i t c hp
      have hone : ∃ m ms', ms = m :: ms' ∧ Complete t m ∧ buf.drop c = stream ms' ∧ InOneRead ms' := by
        split at h
        · rename_i hrest
          cases h
          obtain ⟨m, ms', hm, hnil, rfl⟩ := List.forall₂_cons_left_iff.mp hall
          obtain rfl := List.forall₂_nil_left_iff.mp hnil
          exact ⟨m, [], rfl, hm, hrest, trivial⟩
        · rename_i hrest
          obtain ⟨l, hl, rfl⟩ := Received.after_eq_ok h
          obtain ⟨m, ms', hm, hall', rfl⟩ := List.forall₂_cons_left_iff.mp hall
          exact ⟨m, ms', rfl, hm, ih hrest hl hall'⟩
      obtain ⟨m, ms', rfl, hm, hrest, hms'⟩ := hone
      have hsplit : buf = m.bytes ++ stream ms' := by
        rw [← hrest, ← hm.1, (parse_clear k hb hp).1, List.take_append_drop]
      rw [hsplit] at hp
      refine ⟨hsplit, ?_, hms'⟩
      rw [← stream_eq_nil]
      exact (parse_complete_iff k m _).mp ⟨t, c, hp, hm⟩

theorem cutMsgPack_of_inOneRead (k : HttpMsgType) {n : Nat} {ms : List Message} (hne : ms ≠ []) (hms : InOneRead ms)
    (hn : (stream ms).length ≤ n) :
    ∃ s received, cutMsgPack k n k.clear (stream ms) = some (.ok (s, received)) ∧ List.Forall₂ Complete received ms := by
  have hb : stream ms ≠ [] := mt stream_eq_nil.mp hne
  induction ms generalizing n with
  | nil => exact absurd rfl hne
  | cons m ms ih =>
    obtain ⟨n, rfl⟩ := Nat.exists_eq_add_of_le' (Nat.lt_of_lt_of_le (List.length_pos_iff.mpr hb) hn)
    obtain ⟨hm, hms⟩ := hms
    rw [← stream_eq_nil] at hm
    obtain ⟨t, c, hp, ht⟩ := (parse_complete_iff k m _).mpr hm
    obtain ⟨hbuf, hc, -⟩ := parse_clear k hb hp
    rw [ht.1, stream_cons] at hbuf
    have hrest : (m.bytes ++ stream ms).drop c = stream ms := by
      have happ := List.take_append_drop c (m.bytes ++ stream ms)
      rwa [← hbuf, List.append_cancel_left_eq] at happ
    rw [cutMsgPack_clear k n hb, stream_cons, hp]
    dsimp only
    rw [hrest]
    by_cases hend : stream ms = []
    · obtain rfl := stream_eq_nil.mp hend
      rw [if_pos hend]
      exact ⟨_, _, rfl, .cons ht .nil⟩
    · have hlen : (stream ms).length ≤ n := by
        rw [← hrest, List.length_drop]
        rw [stream_cons] at hn
        omega
      obtain ⟨s, l, hl, hall⟩ := ih (mt stream_eq_nil.mpr hend) hms hlen hend
      rw [if_neg hend, hl]
      exact ⟨s, t :: l, rfl, .cons ht hall⟩

/-! ## All reads -/

theorem readAll_ends (k : HttpMsgType) {reads : List (List UInt8)} (hr : ∀ r ∈ reads, r ≠ []) :
    (readAll k k.clear reads).isSome := by
  induction reads with
  | nil => rfl
  | cons buf reads ih =>
    have hb := hr buf (by simp)
    obtain ⟨r, hcut⟩ := Option.isSome_iff_exists.mp (cutMsgPack_ends k hb le_rfl)
    rw [readAll, hcut]
    cases r with
    | error e => rfl
    | ok r =>
      obtain ⟨s, received⟩ := r
      obtain rfl := cutMsgPack_state k hb hcut
      dsimp only
      rw [Received.after, Option.isSome_map]
      exact ih fun r h => hr r (List.mem_cons_of_mem _ h)

/-- The messages in groups, one a read, each of messages that one read can bring. -/
def InReads (reads : List (List UInt8)) (ms : List Message) : Prop :=
  ∃ groups : List (List Message), groups.flatten = ms ∧ reads = groups.map stream ∧ ∀ g ∈ groups, InOneRead g

theorem inReads_of_readAll (k : HttpMsgType) {reads : List (List UInt8)} (hr : ∀ r ∈ reads, r ≠ []) {ms : List Message}
    {s : HttpBaseMsg} {received : List HttpBaseMsg} (h : readAll k k.clear reads = some (.ok (s, received)))
    (hall : List.Forall₂ Complete received ms) : InReads reads ms := by
  induction reads generalizing ms received with
  | nil =>
    cases h
    exact ⟨[], (List.forall₂_nil_left_iff.mp hall).symm, rfl, by simp⟩
  | cons buf reads ih =>
    have hb := hr buf (by simp)
    rw [readAll] at h
    split at h
    · rename_i t l hcut
      obtain rfl := cutMsgPack_state k hb hcut
      obtain ⟨l', hl', rfl⟩ := Received.after_eq_ok h
      have hnow : List.Forall₂ Complete l (ms.take l.length) := (List.forall₂_take_append ms l l' hall.flip).flip
      have hlater : List.Forall₂ Complete l' (ms.drop l.length) := (List.forall₂_drop_append ms l l' hall.flip).flip
      obtain ⟨groups, hflat, hreads, hg⟩ := ih (fun r h => hr r (List.mem_cons_of_mem _ h)) hl' hlater
      obtain ⟨hstream, hone⟩ := inOneRead_of_cutMsgPack k hb hcut hnow
      refine ⟨ms.take l.length :: groups, ?_, ?_, List.forall_mem_cons.mpr ⟨hone, hg⟩⟩
      · rw [List.flatten_cons, hflat, List.take_append_drop]
      · rw [List.map_cons, ← hstream, ← hreads]
    · rename_i hno
      exact absurd h (hno s received)

theorem readAll_of_inReads (k : HttpMsgType) {groups : List (List Message)} (hne : ∀ g ∈ groups, g ≠ [])
    (hg : ∀ g ∈ groups, InOneRead g) :
    ∃ s received, readAll k k.clear (groups.map stream) = some (.ok (s, received)) ∧
      List.Forall₂ Complete received groups.flatten := by
  induction groups with
  | nil => exact ⟨_, _, rfl, .nil⟩
  | cons g groups ih =>
    obtain ⟨hgne, hne⟩ := List.forall_mem_cons.mp hne
    obtain ⟨hone, hg⟩ := List.forall_mem_cons.mp hg
    obtain ⟨s, l, hcut, hall⟩ := cutMsgPack_of_inOneRead k hgne hone le_rfl
    obtain rfl := cutMsgPack_state k (mt stream_eq_nil.mp hgne) hcut
    obtain ⟨s, l', hl', hall'⟩ := ih hne hg
    rw [List.map_cons, readAll, hcut]
    dsimp only
    rw [hl']
    exact ⟨s, l ++ l', rfl, List.rel_append hall hall'⟩

/-- Every message is handed over, once, complete and in order, just when each read brings whole messages and the length
that is read in each is that of its body. -/
theorem messages_delivered_iff (k : HttpMsgType) {reads : List (List UInt8)} (hr : ∀ r ∈ reads, r ≠ [])
    (ms : List Message) : k.Delivers reads ms ↔ InReads reads ms := by
  constructor
  · intro h
    obtain ⟨s, received, h, hall⟩ := h
    exact inReads_of_readAll k hr h hall
  · intro h
    obtain ⟨groups, rfl, rfl, hg⟩ := h
    refine readAll_of_inReads k (fun g hgm hnil => ?_) hg
    exact hr (stream g) (List.mem_map_of_mem hgm) (stream_eq_nil.mpr hnil)

theorem posts_delivered : HttpMsgType.svr.Delivers [stream [post, post], stream [post]] [post, post, post] := by
  have hpost : contentLen post.headers = .ok post.body.length := by decide
  refine (messages_delivered_iff .svr (by decide) _).mpr ⟨[[post, post], [post]], rfl, rfl, ?_⟩
  refine List.forall_mem_cons.mpr ⟨?_, ?_⟩
  · exact ⟨.inr hpost, .inr hpost, trivial⟩
  · exact List.forall_mem_singleton.mpr ⟨.inr hpost, trivial⟩

theorem split_post_not_delivered :
    [post.bytes.take 21, post.bytes.drop 21].flatten = stream [post] ∧
      ¬ HttpMsgType.svr.Delivers [post.bytes.take 21, post.bytes.drop 21] [post] := by
  refine ⟨by decide, fun h => ?_⟩
  obtain ⟨s, received, h, hall⟩ := h
  have hthree : (readAll .svr HttpMsgType.svr.clear [post.bytes.take 21, post.bytes.drop 21]).map
      (·.toOption.map (·.2.length)) = some (some 3) := by decide
  rw [h] at hthree
  have hlen : received.length = 3 := Option.some.inj (Option.some.inj hthree)
  have hone := hall.length_eq
  rw [hlen] at hone
  cases hone

end GlobalServer.Http
