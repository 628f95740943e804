import GlobalServer.Netio.SendDataByFd
import GlobalServer.Netio.TcpStreamExact

/-!
# One direction of a connection

What `SendPacket` has accepted at one end passes the two buffers of the
socket, the network and the reader at the other end. The network takes and
gives any number of bytes at a time, so a packet can be anywhere in between.
As long as the reads end where the reader can go on, this is a list of
payloads that is written at one end and read at the other.
-/

namespace GlobalServer

open Bytes PacketHeader

/-- A sender, the bytes that the system has taken and not yet given to the other end, and the reader there. -/
structure Channel where
  socket : TcpBaseSocket
  inflight : List UInt8
  reader : Reader
  /-- `_ReadHandler` asks for another read -/
  reading : Bool
  accepted : List (List UInt8)
  delivered : List (List UInt8)

namespace Channel

inductive Event where
  | sendPacket (data : List UInt8) (error : Bool)
  | written (tranByte : Nat) (error sendError : Bool)
  | close
  /-- the reader gets `n` bytes -/
  | read (n : Nat)
  deriving DecidableEq

def init : Channel :=
  { socket := .init, inflight := [], reader := .init, reading := true, accepted := [], delivered := [] }

def perform (c : Channel) : Event → Except Fault Channel
  | .sendPacket data error => do
    let out ← c.socket.sendPacket data error
    .ok { c with socket := out.1, accepted := if out.2 then c.accepted ++ [data] else c.accepted }
  | .written tranByte error sendError =>
    .ok { c with
      socket := c.socket.written tranByte error sendError
      inflight := c.inflight ++ c.socket.taken tranByte }
  | .close => .ok { c with socket := c.socket.closeSocket }
  | .read n => do
    let out ← cutMsgPack (c.reader.recv (c.inflight.take n)) n
    .ok { c with
      inflight := c.inflight.drop n, reader := out.1, reading := out.2.2, delivered := c.delivered ++ out.2.1 }

/-- A payload with its header is shorter than a 32-bit word can say, a completion is that of a write that has been posted,
and a read has as many bytes as have come and `readbuf` can take. -/
def Possible (c : Channel) : Event → Prop
  | .sendPacket data _ => data.length + hdrlen < 2 ^ 32
  | .written tranByte _ _ => c.socket.InFlight tranByte
  | .close => True
  | .read n => c.reading = true ∧ 0 < n ∧ n ≤ c.inflight.length ∧ n ≤ M_SOCKET_READ_SIZE

/-- The read ends between two packets, or in the header of one that the slow path gets right. -/
def EndsOk (c : Channel) : Event → Prop
  | .read n => EndOk (c.accepted.drop c.delivered.length) (c.reader.msgbuffer.data.length + n)
  | _ => True

/-- The runs whose reads all end in the right places. -/
def Run : List Event → Channel → Prop :=
  Runs.Run (fun c e c' => c.perform e = .ok c') (fun _ c e => c.Possible e ∧ c.EndsOk e) init

end Channel

/-! ## The sender -/

namespace TcpBaseSocket

variable {s : TcpBaseSocket}

/-- Bytes are on their way as long as the socket is connected or a write is in flight. -/
def Sends (s : TcpBaseSocket) : Prop := s.flag = .start ∨ s.writing = true

theorem closeSocket_sends (h : s.closeSocket.Sends) : s.Sends := by
  rcases h with h | h
  · exact absurd h (closeSocket_flag s)
  · exact .inr (by simpa using h)

/-- A completion takes bytes from the front of what is to be written. After an error nothing more is written. -/
theorem written_unsent (h : s.Sound) {tranByte : Nat} (ht : s.InFlight tranByte) (error sendError : Bool) :
    (s.written tranByte error sendError).Sends →
      s.taken tranByte ++ (s.written tranByte error sendError).unsent = s.unsent := by
  obtain ⟨-, hl, hnone, htaken⟩ := inFlight_spec h.queued.sane1 h.queued.posted ht
  obtain ⟨hcut, hrest⟩ := h.queued.sane1.cutData hl
  have hu := (trySendData_spec
    (s := { s with posted := s.posted.tail, writing := false, msgbuffer1 := s.msgbuffer1.cutData tranByte })
    hcut h.queued.sane2 hnone sendError).2
  have hnot : ¬ (closeSocket { s with posted := s.posted.tail, writing := false }).Sends := by
    intro hs
    rcases hs with hs | hs
    · exact absurd hs (closeSocket_flag _)
    · simp at hs
  have hall : s.taken tranByte ++ (trySendData { s with
      posted := s.posted.tail, writing := false, msgbuffer1 := s.msgbuffer1.cutData tranByte } sendError).1.unsent =
        s.unsent := by
    rw [hu, htaken]
    simp only [unsent, hrest]
    rw [← List.append_assoc, List.take_append_drop]
  intro hs
  unfold written writeHandler at hs ⊢
  simp only at hs ⊢
  split at hs
  · exact absurd hs hnot
  · split at hs
    · exact absurd hs hnot
    · next he h0 =>
      rw [if_neg he, if_neg h0]
      split
      · rw [unsent_closeSocket]
        exact hall
      · exact hall

end TcpBaseSocket

/-! ## The whole -/

theorem endOk_concat {kept more : List UInt8} {q : List (List UInt8)} (hf : Front kept more q) (h : EndOk q kept.length)
    (data : List UInt8) : Front kept (more ++ packet data) (q ++ [data]) ∧ EndOk (q ++ [data]) kept.length := by
  have heq : kept ++ (more ++ packet data) = stream (q ++ [data]) := by
    rw [← List.append_assoc, hf.eq]
    simp
  cases q with
  | nil =>
    have hk : kept = [] := by simpa using (List.append_eq_nil_iff.mp hf.eq).1
    subst hk
    refine ⟨⟨heq, ?_⟩, endOk_zero _⟩
    intro p hp
    unfold hdrlen
    rw [List.length_nil]
    omega
  | cons p q =>
    refine ⟨⟨heq, hf.short⟩, ?_⟩
    have hlt := hf.short p rfl
    rw [List.cons_append, EndOk, if_pos hlt]
    rwa [EndOk, if_pos hlt] at h

namespace Channel

variable {c : Channel}

/-- Of the payloads `q` that are under way the reader has kept `kept`, and `rest` is with the sender, who may have given up
to send it. -/
structure Carries (c : Channel) (q : List (List UInt8)) (kept rest : List UInt8) : Prop where
  accepted : c.accepted = c.delivered ++ q
  socket : c.socket.Sound
  left : Left M_BUFFER_DEFAILT_SIZE kept c.reader
  front : Front kept (c.inflight ++ rest) q
  endOk : EndOk q kept.length
  length : ∀ p ∈ q, p.length ≤ M_SOCKET_PACK_SIZE
  rest : c.socket.Sends → c.socket.unsent = rest
  reading : c.reading = true

theorem carries_init : init.Carries [] [] [] where
  accepted := rfl
  socket := TcpBaseSocket.sound_init
  left := left_init
  front := Front.nil rfl
  endOk := trivial
  length := nofun
  rest := fun _ => by decide
  reading := rfl

variable {q : List (List UInt8)} {kept rest : List UInt8}

theorem Carries.endsOk (h : c.Carries q kept rest) {n : Nat} (he : c.EndsOk (.read n)) : EndOk q (kept.length + n) := by
  have hq : c.accepted.drop c.delivered.length = q := by
    rw [h.accepted, List.drop_left]
  unfold EndsOk at he
  rwa [hq, h.left.data] at he

theorem Carries.sendPacket (h : c.Carries q kept rest) {data : List UInt8} (hl : data.length + hdrlen < 2 ^ 32)
    (error : Bool) : ∃ c' q' rest', c.perform (.sendPacket data error) = .ok c' ∧ c'.Carries q' kept rest' := by
  by_cases ha : c.socket.Accepts data.length
  · obtain ⟨s', hs, hsound, hu⟩ := TcpBaseSocket.sendPacket_of_accepts h.socket ha error
    obtain ⟨hf, he⟩ := endOk_concat h.front h.endOk data
    have hlen : data.length ≤ M_SOCKET_PACK_SIZE := Nat.le_trans (Nat.le_add_right _ _) ha.2.1
    refine ⟨_, q ++ [data], rest ++ packet data, by simp only [perform, hs]; rfl, ?_⟩
    refine ⟨?_, hsound, h.left, ?_, he, ?_, ?_, h.reading⟩
    · simp [h.accepted]
    · rw [← List.append_assoc]
      exact hf
    · intro p hp
      rcases List.mem_append.mp hp with hp | hp
      · exact h.length p hp
      · rw [List.mem_singleton.mp hp]
        exact hlen
    · intro _
      rw [hu, h.rest (.inl ha.1)]
  · have hs := TcpBaseSocket.sendPacket_of_refused h.socket hl ha error
    exact ⟨c, q, rest, by simp only [perform, hs]; rfl, h⟩

theorem Carries.written (h : c.Carries q kept rest) {tranByte : Nat} (ht : c.socket.InFlight tranByte)
    (error sendError : Bool) :
    ∃ c' rest', c.perform (.written tranByte error sendError) = .ok c' ∧ c'.Carries q kept rest' := by
  obtain ⟨hw, -, -, htaken⟩ := TcpBaseSocket.inFlight_spec h.socket.queued.sane1 h.socket.queued.posted ht
  have hrest : rest = c.socket.taken tranByte ++
      (c.socket.msgbuffer1.rest.drop tranByte ++ c.socket.msgbuffer2.rest) := by
    rw [htaken, ← h.rest (.inr hw), ← List.append_assoc, List.take_append_drop]
    rfl
  refine ⟨_, c.socket.msgbuffer1.rest.drop tranByte ++ c.socket.msgbuffer2.rest, rfl, ?_⟩
  refine ⟨h.accepted, h.socket.written ht error sendError, h.left, ?_, h.endOk, h.length, ?_, h.reading⟩
  · rw [List.append_assoc, ← hrest]
    exact h.front
  · intro hs
    have hu := TcpBaseSocket.written_unsent h.socket ht error sendError hs
    rw [h.rest (.inr hw), hrest] at hu
    exact List.append_cancel_left hu

theorem Carries.close (h : c.Carries q kept rest) : Carries { c with socket := c.socket.closeSocket } q kept rest :=
  { h with socket := h.socket.closeSocket
           rest := fun hs => by
             simp only [TcpBaseSocket.unsent_closeSocket]
             exact h.rest (TcpBaseSocket.closeSocket_sends hs) }

theorem Carries.read (h : c.Carries q kept rest) {n : Nat} (hn : n ≤ c.inflight.length) (hs : n ≤ M_SOCKET_READ_SIZE)
    (he : c.EndsOk (.read n)) :
    ∃ c' q' kept', c.perform (.read n) = .ok c' ∧ c'.Carries q' kept' rest := by
  have hxn : (c.inflight.take n).length = n := by rw [List.length_take]; omega
  have heq : (kept ++ c.inflight.take n) ++ (c.inflight.drop n ++ rest) = stream q := by
    rw [← h.front.eq, List.append_assoc, ← List.append_assoc (c.inflight.take n), List.take_append_drop]
  obtain ⟨ps₁, ps₂, kept', rfl, hsplit, hfront⟩ := exists_front q _ _ heq
  have hlen : kept.length + n = (stream ps₁).length + kept'.length := by
    rw [← hxn, ← List.length_append, hsplit, List.length_append]
  have hend : EndOk ps₂ kept'.length := by
    have := h.endsOk he
    rwa [hlen, endOk_append] at this
  obtain ⟨r', hcut, hleft⟩ := cutMsgPack_clean h.left (h.front.le h.endOk) (by rw [hxn]; exact hs)
    (fun p hp => h.length p (List.mem_append_left _ hp)) (fun p hp => h.length p (List.mem_append_right _ hp))
    ⟨by rw [← h.front.eq, ← List.append_assoc (c.inflight.take n), List.take_append_drop], h.front.short⟩ hsplit hfront
    (by
      intro h0 p hp
      cases ps₁ with
      | nil => cases hp
      | cons p' ps =>
        cases hp
        exact h.front.slowOk h.endOk h0)
  rw [hxn] at hcut
  refine ⟨_, ps₂, kept', by simp only [perform, hcut]; rfl, ?_⟩
  refine ⟨?_, h.socket, hleft, hfront, hend, fun p hp => h.length p (List.mem_append_right _ hp), h.rest, rfl⟩
  simp [h.accepted]

theorem Carries.step (h : c.Carries q kept rest) {e : Event} (hp : c.Possible e) (he : c.EndsOk e) :
    ∃ c' q' kept' rest', c.perform e = .ok c' ∧ c'.Carries q' kept' rest' := by
  cases e with
  | sendPacket data error =>
    obtain ⟨c', q', rest', hc, hq⟩ := h.sendPacket hp error
    exact ⟨c', q', kept, rest', hc, hq⟩
  | written tranByte error sendError =>
    obtain ⟨c', rest', hc, hq⟩ := h.written hp error sendError
    exact ⟨c', q, kept, rest', hc, hq⟩
  | close => exact ⟨_, q, kept, rest, rfl, h.close⟩
  | read n =>
    obtain ⟨c', q', kept', hc, hq⟩ := h.read hp.2.2.1 hp.2.2.2 he
    exact ⟨c', q', kept', rest, hc, hq⟩

theorem run_carries {t : List Event} (h : Run t c) : ∃ q kept rest, c.Carries q kept rest := by
  refine Runs.Run.invariant (fun _ c => ∃ q kept rest, c.Carries q kept rest) ⟨[], [], [], carries_init⟩ ?_ h
  rintro t c e c' - ⟨q, kept, rest, hq⟩ ⟨hp, he⟩ hst
  obtain ⟨c₁, q', kept', rest', hc, hq'⟩ := hq.step hp he
  obtain rfl := Except.ok.inj (hc.symm.trans hst)
  exact ⟨q', kept', rest', hq'⟩

/-- A direction of a connection is a list that is read in the order in which it is written: in every run whose reads end in
the right places, whatever becomes of the sender, the payloads handed over are the first of those accepted, unchanged.
They are all of them when the sender is connected with no write in flight and the network has nothing. Every further event
of this kind can be handled. -/
theorem fifo {t : List Event} (h : Run t c) : c.delivered <+: c.accepted ∧
    (c.socket.flag = .start → c.socket.writing = false → c.inflight = [] → c.delivered = c.accepted) ∧
      ∀ e, c.Possible e → c.EndsOk e → ∃ c', c.perform e = .ok c' := by
  obtain ⟨q, kept, rest, hq⟩ := run_carries h
  refine ⟨⟨q, hq.accepted.symm⟩, ?_, ?_⟩
  · intro hf hw hin
    obtain ⟨h1, h2⟩ := hq.socket.queued.idle hf hw
    have hrest : rest = [] := by
      rw [← hq.rest (.inl hf), TcpBaseSocket.unsent, (TcpBaseSocket.length_eq_zero hq.socket.queued.sane1).mp h1,
        (TcpBaseSocket.length_eq_zero hq.socket.queued.sane2).mp h2]
      rfl
    have heq := hq.front.eq
    rw [hin, hrest, List.append_nil, List.append_nil] at heq
    cases q with
    | nil => simpa using hq.accepted.symm
    | cons p q =>
      -- all of a packet is with the reader, who keeps only part of one
      have hlt := hq.front.short p rfl
      rw [heq, stream_cons, List.length_append, length_packet] at hlt
      omega
  · intro e hp he
    obtain ⟨c', -, -, -, hc, -⟩ := hq.step hp he
    exact ⟨c', hc⟩

/-- A packet whose bytes are taken in two parts and read at once. -/
theorem fifo_one : ∃ c, Run [.sendPacket [7] false, .written 4 false false, .written 5 false false, .read 9] c ∧
    c.delivered = [[7]] := by
  obtain ⟨c, h, hp, he, hf, hw, hin, hacc⟩ : ∃ c,
      Run [.sendPacket [7] false, .written 4 false false, .written 5 false false] c ∧ c.Possible (.read 9) ∧
        c.EndsOk (.read 9) ∧ c.socket.flag = .start ∧ c.socket.writing = false ∧ c.inflight.drop 9 = [] ∧
          c.accepted = [[7]] := by
    have h : Run ([] ++ [.sendPacket [7] false] ++ [.written 4 false false] ++ [.written 5 false false]) _ :=
      .snoc (.snoc (.snoc .nil ⟨by simp [Possible, hdrlen], trivial⟩ rfl) ⟨by unfold Possible; decide, trivial⟩ rfl)
        ⟨by unfold Possible; decide, trivial⟩ rfl
    refine ⟨_, h, ⟨rfl, by decide, by decide, by decide⟩, ?_, by decide, by decide, by decide, rfl⟩
    show EndOk [[7]] 9
    simp [EndOk, hdrlen]
  obtain ⟨c', hst⟩ := (fifo h).2.2 (.read 9) hp he
  have h' := Runs.Run.snoc h ⟨hp, he⟩ hst
  obtain ⟨out, -, hc⟩ := Except.bind_eq_ok.mp hst
  obtain rfl := Except.ok.inj hc
  exact ⟨_, h', ((fifo h').2.1 hf hw hin).trans hacc⟩

end Channel

end GlobalServer
