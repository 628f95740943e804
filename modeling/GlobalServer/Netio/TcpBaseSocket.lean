import GlobalServer.Lib.Runs
import GlobalServer.Netio.TcpStream

/-!
# Sending: `TcpBaseSocket`

`Send` queues its bytes in `msgbuffer2`. One write at a time is in flight,
from `msgbuffer1`; when all of that has been written the buffers change
places. The operating system is given a place in the buffer and a length, takes
some of the bytes there and `_WriteHandler` is told how many.
-/

namespace GlobalServer

open Bytes

/-- `_flag` -/
inductive NetioState where
  | start
  | stop
  | close
  deriving DecidableEq

structure TcpBaseSocket where
  flag : NetioState
  writing : Bool
  msgbuffer1 : Buffer
  msgbuffer2 : Buffer
  /-- the bytes that the calls of `AsyncSendSome` gave to the system, of those whose writes have not completed -/
  posted : List (List UInt8)
  deriving DecidableEq

namespace TcpBaseSocket

/-- A connected socket. -/
def init : TcpBaseSocket :=
  { flag := .start, writing := false, msgbuffer1 := Buffer.init, msgbuffer2 := Buffer.init, posted := [] }

/-- `_Close`; the socket itself is closed once no write is in flight. -/
def closeSocket (s : TcpBaseSocket) : TcpBaseSocket :=
  if s.flag = .close then s else { s with flag := if s.writing then .stop else .close }

/-- The buffers change places when `msgbuffer1` has been written. -/
def swapBuffers (s : TcpBaseSocket) : TcpBaseSocket :=
  if s.msgbuffer1.length = 0 then { s with msgbuffer1 := s.msgbuffer2, msgbuffer2 := s.msgbuffer1.clear } else s

/-- `AsyncSendSome`, without an error: it is given `Data()` and `Length()` of `msgbuffer1`. -/
def asyncSendSome (s : TcpBaseSocket) : TcpBaseSocket :=
  { s with posted := s.posted ++ [s.msgbuffer1.rest.take s.msgbuffer1.length] }

/-- `_TrySendData`; `error` is that of `AsyncSendSome`, if it is called. -/
def trySendData (s : TcpBaseSocket) (error : Bool) : TcpBaseSocket × Bool :=
  if s.writing then (s, true)
  else if 0 < s.swapBuffers.msgbuffer1.length then
    if error then (s.swapBuffers.closeSocket, false) else ({ s.swapBuffers.asyncSendSome with writing := true }, true)
  else (s.swapBuffers, false)

def send (s : TcpBaseSocket) (data : List UInt8) (error : Bool) : Except Fault (TcpBaseSocket × Bool) :=
  if checkCanSend { started := s.flag = .start, msgbuffer2 := s.msgbuffer2 } (i32 data.length) then do
    let mb ← s.msgbuffer2.write data
    .ok (({ s with msgbuffer2 := mb }.trySendData error).1, true)
  else .ok (s, false)

/-- `_WriteHandler`; `sendError` is the error of the next `AsyncSendSome`, if there is one. -/
def writeHandler (s : TcpBaseSocket) (tranByte : Nat) (error sendError : Bool) : TcpBaseSocket :=
  let s := { s with writing := false }
  if error then s.closeSocket
  else if tranByte = 0 then s.closeSocket
  else
    let out := { s with msgbuffer1 := s.msgbuffer1.cutData tranByte }.trySendData sendError
    -- all has been sent and the socket is not to be used any more
    if out.2 = false ∧ out.1.flag ≠ .start then out.1.closeSocket else out.1

/-- A write that has been posted can complete, when `tranByte` of its bytes have been taken. -/
def InFlight (s : TcpBaseSocket) (tranByte : Nat) : Prop := ∃ data ∈ s.posted.head?, tranByte ≤ data.length

instance (s : TcpBaseSocket) (tranByte : Nat) : Decidable (s.InFlight tranByte) := by
  unfold InFlight
  infer_instance

/-- What the system has then taken. -/
def taken (s : TcpBaseSocket) (tranByte : Nat) : List UInt8 := (s.posted.headD []).take tranByte

/-- The write that was posted first completes. -/
def written (s : TcpBaseSocket) (tranByte : Nat) (error sendError : Bool) : TcpBaseSocket :=
  { s with posted := s.posted.tail }.writeHandler tranByte error sendError

end TcpBaseSocket

/-! ## Sequences of sends and completions -/

inductive SocketEvent where
  | send (data : List UInt8) (error : Bool)
  | written (tranByte : Nat) (error sendError : Bool)
  | close
  deriving DecidableEq

/-- A socket with the bytes that the system has taken and those of the sends it has accepted. -/
structure Sending where
  socket : TcpBaseSocket
  given : List UInt8
  accepted : List UInt8
  deriving DecidableEq

namespace Sending

def init : Sending := { socket := .init, given := [], accepted := [] }

def perform (s : Sending) : SocketEvent → Except Fault Sending
  | .send data error => do
    let out ← s.socket.send data error
    .ok { s with socket := out.1, accepted := if out.2 then s.accepted ++ data else s.accepted }
  | .written tranByte error sendError =>
    .ok { s with
      socket := s.socket.written tranByte error sendError
      given := s.given ++ s.socket.taken tranByte }
  | .close => .ok { s with socket := s.socket.closeSocket }

/-- The length of a send is a 32-bit word; a completion is that of a write that has been posted, and of no more bytes
than the system was given with it. -/
def Possible (s : Sending) : SocketEvent → Prop
  | .send data _ => data.length < 2 ^ 32
  | .written tranByte _ _ => s.socket.InFlight tranByte
  | .close => True

instance (s : Sending) : ∀ e, Decidable (s.Possible e)
  | .send data _ => inferInstanceAs (Decidable (data.length < 2 ^ 32))
  | .written tranByte _ _ => inferInstanceAs (Decidable (s.socket.InFlight tranByte))
  | .close => isTrue trivial

/-- What a run of events leads to. -/
def Run : List SocketEvent → Sending → Prop :=
  Runs.Run (fun s e s' => s.perform e = .ok s') (fun _ s e => s.Possible e) init

end Sending

namespace TcpBaseSocket

/-- The bytes still to be written. -/
def unsent (s : TcpBaseSocket) : List UInt8 := s.msgbuffer1.rest ++ s.msgbuffer2.rest

/-- What the system has been given while a write is in flight. -/
def inFlight (s : TcpBaseSocket) : List (List UInt8) := if s.writing then [s.msgbuffer1.rest] else []

/-- What is true of the buffers whenever the lock is free. -/
structure Queued (s : TcpBaseSocket) : Prop where
  sane1 : s.msgbuffer1.Sane
  sane2 : s.msgbuffer2.Sane
  /-- with no write in flight there is nothing to write -/
  idle : s.flag = .start → s.writing = false → s.msgbuffer1.length = 0 ∧ s.msgbuffer2.length = 0
  /-- one write is in flight, or none, and what the system was given is still the rest of `msgbuffer1` -/
  posted : s.posted = s.inFlight

theorem queued_init : init.Queued := ⟨Buffer.sane_init, Buffer.sane_init, fun _ _ => ⟨by decide, by decide⟩, rfl⟩

theorem queued_closeSocket {s : TcpBaseSocket} (h1 : s.msgbuffer1.Sane) (h2 : s.msgbuffer2.Sane)
    (hp : s.posted = s.inFlight) : s.closeSocket.Queued := by
  unfold closeSocket
  by_cases hc : s.flag = .close
  · rw [if_pos hc]
    exact ⟨h1, h2, fun hs => by simp [hc] at hs, hp⟩
  · rw [if_neg hc]
    refine ⟨h1, h2, fun hs => ?_, hp⟩
    simp only at hs
    split at hs <;> cases hs

@[simp] theorem closeSocket_writing (s : TcpBaseSocket) : s.closeSocket.writing = s.writing := by
  unfold closeSocket
  split <;> rfl

@[simp] theorem closeSocket_msgbuffer1 (s : TcpBaseSocket) : s.closeSocket.msgbuffer1 = s.msgbuffer1 := by
  unfold closeSocket
  split <;> rfl

@[simp] theorem closeSocket_msgbuffer2 (s : TcpBaseSocket) : s.closeSocket.msgbuffer2 = s.msgbuffer2 := by
  unfold closeSocket
  split <;> rfl

@[simp] theorem unsent_closeSocket (s : TcpBaseSocket) : s.closeSocket.unsent = s.unsent := by
  simp [unsent]

@[simp] theorem swapBuffers_flag (s : TcpBaseSocket) : s.swapBuffers.flag = s.flag := by
  unfold swapBuffers
  split <;> rfl

@[simp] theorem swapBuffers_writing (s : TcpBaseSocket) : s.swapBuffers.writing = s.writing := by
  unfold swapBuffers
  split <;> rfl

@[simp] theorem swapBuffers_posted (s : TcpBaseSocket) : s.swapBuffers.posted = s.posted := by
  unfold swapBuffers
  split <;> rfl

@[simp] theorem closeSocket_posted (s : TcpBaseSocket) : s.closeSocket.posted = s.posted := by
  unfold closeSocket
  split <;> rfl

theorem length_eq_zero {b : Buffer} (h : b.Sane) : b.length = 0 ↔ b.rest = [] := by
  rw [h.length, List.length_eq_zero_iff]

theorem asyncSendSome_posted {s : TcpBaseSocket} (h1 : s.msgbuffer1.Sane) :
    s.asyncSendSome.posted = s.posted ++ [s.msgbuffer1.rest] := by
  rw [asyncSendSome, h1.length, List.take_length]

theorem swapBuffers_spec {s : TcpBaseSocket} (h1 : s.msgbuffer1.Sane) (h2 : s.msgbuffer2.Sane) :
    s.swapBuffers.msgbuffer1.Sane ∧ s.swapBuffers.msgbuffer2.Sane ∧ s.swapBuffers.unsent = s.unsent ∧
      (s.swapBuffers.msgbuffer1.length = 0 → s.swapBuffers.msgbuffer2.length = 0) := by
  unfold swapBuffers
  by_cases h0 : s.msgbuffer1.length = 0
  · rw [if_pos h0]
    refine ⟨h2, Buffer.sane_clear _, ?_, fun _ => Buffer.clear_length _⟩
    simp [unsent, (length_eq_zero h1).mp h0]
  · rw [if_neg h0]
    exact ⟨h1, h2, rfl, fun h => absurd h h0⟩

theorem trySendData_spec {s : TcpBaseSocket} (h1 : s.msgbuffer1.Sane) (h2 : s.msgbuffer2.Sane)
    (hp : s.posted = s.inFlight) (error : Bool) :
    (s.trySendData error).1.Queued ∧ (s.trySendData error).1.unsent = s.unsent := by
  obtain ⟨hs1, hs2, hu, h0⟩ := swapBuffers_spec h1 h2
  unfold trySendData
  by_cases hw : s.writing = true
  · rw [if_pos hw]
    exact ⟨⟨h1, h2, fun _ hf => by simp [hw] at hf, hp⟩, rfl⟩
  · rw [if_neg hw]
    -- no write is in flight, so that the next one is the only one
    have hnone : s.posted = [] := by simpa [inFlight, hw] using hp
    by_cases hl : 0 < s.swapBuffers.msgbuffer1.length
    · rw [if_pos hl]
      by_cases he : error = true
      · rw [if_pos he]
        exact ⟨queued_closeSocket hs1 hs2 (by simp [hnone, inFlight, hw]), by rw [unsent_closeSocket, hu]⟩
      · rw [if_neg he]
        refine ⟨⟨hs1, hs2, fun _ hf => by simp at hf, ?_⟩, hu⟩
        simp only [asyncSendSome_posted hs1, swapBuffers_posted, hnone, List.nil_append]
        rfl
    · rw [if_neg hl]
      have hz : s.swapBuffers.msgbuffer1.length = 0 := by omega
      exact ⟨⟨hs1, hs2, fun _ _ => ⟨hz, h0 hz⟩, by simp [hnone, inFlight, hw]⟩, hu⟩

theorem closeSocket_flag (s : TcpBaseSocket) : s.closeSocket.flag ≠ .start := by
  unfold closeSocket
  split
  · rename_i hc
    simp [hc]
  · simp only
    split <;> simp

theorem trySendData_flag {s : TcpBaseSocket} {error : Bool} (h : (s.trySendData error).1.flag = .start) :
    s.flag = .start := by
  unfold trySendData at h
  split at h
  · exact h
  · split at h
    · split at h
      · exact absurd h (closeSocket_flag _)
      · simpa [asyncSendSome] using h
    · simpa using h

theorem send_spec {s : TcpBaseSocket} (h : s.Queued) {data : List UInt8} (hl : data.length < 2 ^ 32) (error : Bool) :
    ∃ s' ok, s.send data error = .ok (s', ok) ∧ s'.Queued ∧ s'.unsent = (s.unsent ++ if ok then data else []) ∧
      (s'.flag = .start → s.flag = .start) := by
  unfold send
  split
  · rename_i hc
    simp only [checkCanSend, Bool.and_eq_true, decide_eq_true_eq] at hc
    obtain ⟨⟨⟨hc0, hc1⟩, -⟩, hc2⟩ := hc
    simp only [M_SOCKET_PACK_SIZE, E_MAX_BUFFER_SIZE, Buffer.pos, i32] at hc0 hc1 hc2
    obtain ⟨mb, hw⟩ := Buffer.write_of_lt s.msgbuffer2 data (by omega)
    obtain ⟨hsane, hrest, -⟩ := h.sane2.write hw
    obtain ⟨hq, hu⟩ := trySendData_spec (s := { s with msgbuffer2 := mb }) h.sane1 hsane h.posted error
    refine ⟨({ s with msgbuffer2 := mb }.trySendData error).1, true, by rw [hw]; rfl, hq, ?_, fun hf =>
      trySendData_flag (s := { s with msgbuffer2 := mb }) hf⟩
    rw [hu]
    simp [unsent, hrest]
  · exact ⟨s, false, rfl, h, by simp, id⟩

theorem inFlight_spec {s : TcpBaseSocket} (h1 : s.msgbuffer1.Sane) (hp : s.posted = s.inFlight) {tranByte : Nat}
    (ht : s.InFlight tranByte) :
    s.writing = true ∧ tranByte ≤ s.msgbuffer1.length ∧ s.posted.tail = [] ∧
      s.taken tranByte = s.msgbuffer1.rest.take tranByte := by
  obtain ⟨data, hd, hl⟩ := ht
  unfold inFlight at hp
  unfold taken
  split at hp
  · rename_i hw
    rw [hp] at hd ⊢
    simp only [List.head?_cons, Option.mem_some_iff] at hd
    rw [← hd, ← h1.length] at hl
    exact ⟨hw, hl, rfl, rfl⟩
  · simp [hp] at hd

theorem written_spec {s : TcpBaseSocket} (h : s.Queued) {tranByte : Nat} (ht : s.InFlight tranByte)
    (error sendError : Bool) : (s.written tranByte error sendError).Queued ∧
      ((s.written tranByte error sendError).flag = .start →
        s.flag = .start ∧ s.taken tranByte ++ (s.written tranByte error sendError).unsent = s.unsent) := by
  obtain ⟨-, hl, hnone, htaken⟩ := inFlight_spec h.sane1 h.posted ht
  obtain ⟨hcut, hrest⟩ := h.sane1.cutData hl
  obtain ⟨hq, hu⟩ := trySendData_spec
    (s := { s with posted := s.posted.tail, writing := false, msgbuffer1 := s.msgbuffer1.cutData tranByte })
    hcut h.sane2 hnone sendError
  have hclosed : (closeSocket { s with posted := s.posted.tail, writing := false }).Queued :=
    queued_closeSocket h.sane1 h.sane2 hnone
  rw [htaken]
  unfold written writeHandler
  simp only
  by_cases he : error = true
  · rw [if_pos he]
    exact ⟨hclosed, fun hf => absurd hf (closeSocket_flag _)⟩
  · rw [if_neg he]
    by_cases h0 : tranByte = 0
    · rw [if_pos h0]
      exact ⟨hclosed, fun hf => absurd hf (closeSocket_flag _)⟩
    · rw [if_neg h0]
      split
      · exact ⟨queued_closeSocket hq.sane1 hq.sane2 hq.posted, fun hf => absurd hf (closeSocket_flag _)⟩
      · refine ⟨hq, fun hf => ⟨?_, ?_⟩⟩
        · exact trySendData_flag (s := { s with
            posted := s.posted.tail, writing := false, msgbuffer1 := s.msgbuffer1.cutData tranByte }) hf
        rw [hu]
        simp only [unsent, hrest]
        rw [← List.append_assoc, List.take_append_drop]

end TcpBaseSocket

namespace Sending

/-- What a socket has sent and still has to send are the bytes it has accepted, and with no write in flight all
is sent. A write that is in flight is the only one, and that of the rest of `msgbuffer1`. -/
structure Intact (s : Sending) : Prop where
  stream : s.given ++ s.socket.msgbuffer1.rest ++ s.socket.msgbuffer2.rest = s.accepted
  idle : s.socket.writing = false →
    s.socket.posted = [] ∧ s.socket.msgbuffer1.length = 0 ∧ s.socket.msgbuffer2.length = 0
  inFlight : s.socket.writing = true → s.socket.posted = [s.socket.msgbuffer1.rest]

/-- The buffers are in order, and as long as the socket is not closed no byte is lost. -/
structure Kept (s : Sending) : Prop where
  queued : s.socket.Queued
  stream : s.socket.flag = .start → s.given ++ s.socket.unsent = s.accepted

theorem perform_kept {s : Sending} {e : SocketEvent} (h : s.Kept) (hp : s.Possible e) : ∃ s', s.perform e = .ok s' ∧
    s'.Kept := by
  cases e with
  | send data error =>
    obtain ⟨socket, ok, hs, hq, hu, hf⟩ := TcpBaseSocket.send_spec h.queued hp error
    refine ⟨_, by simp only [perform, hs]; rfl, hq, fun hstart => ?_⟩
    simp only
    rw [hu, ← List.append_assoc, h.stream (hf hstart)]
    cases ok <;> simp
  | written tranByte error sendError =>
    obtain ⟨hq, hs⟩ := TcpBaseSocket.written_spec h.queued hp error sendError
    refine ⟨_, rfl, hq, fun hstart => ?_⟩
    obtain ⟨hf, hu⟩ := hs hstart
    simp only
    rw [List.append_assoc, hu, h.stream hf]
  | close =>
    refine ⟨_, rfl, TcpBaseSocket.queued_closeSocket h.queued.sane1 h.queued.sane2 h.queued.posted, fun hf => ?_⟩
    exact absurd hf (TcpBaseSocket.closeSocket_flag _)

theorem run_kept {t : List SocketEvent} {s : Sending} (h : Run t s) : s.Kept := by
  refine Runs.Run.invariant (fun _ s => s.Kept) ⟨TcpBaseSocket.queued_init,
    fun _ => rfl⟩ (fun t s e s' _ hk hp hs => ?_) h
  obtain ⟨s₁, hs₁, hk₁⟩ := perform_kept hk hp
  cases hs.symm.trans hs₁
  exact hk₁

/-- After every run of sends and completions that has not come to an error or a close, the bytes taken by the
system, the rest of `msgbuffer1` and `msgbuffer2` are the accepted sends in order, and with no write in flight
both buffers are empty; the system has been given the rest of `msgbuffer1`, once, while a write is in flight. Every
further event can be handled. -/
theorem run_intact {t : List SocketEvent} {s : Sending} (h : Run t s) :
    (s.socket.flag = .start → s.Intact) ∧ ∀ e, s.Possible e → ∃ s', s.perform e = .ok s' := by
  have hk := run_kept h
  have hposted := hk.queued.posted
  unfold TcpBaseSocket.inFlight at hposted
  refine ⟨fun hf => ⟨?_, fun hw => ⟨by simpa [hw] using hposted, hk.queued.idle hf hw⟩, fun hw => ?_⟩, fun e hp => ?_⟩
  · rw [List.append_assoc]
    exact hk.stream hf
  · simpa [hw] using hposted
  · obtain ⟨s', hs, -⟩ := perform_kept hk hp
    exact ⟨s', hs⟩

/-- Two sends, of which the first is taken in two parts; then the second is in flight. -/
theorem run_intact_two : ∃ s,
    Run [.send [1, 2, 3] false, .send [4] false, .written 2 false false, .written 1 false false] s ∧
      s.socket.flag = .start ∧ s.given = [1, 2, 3] ∧ s.socket.posted = [[4]] ∧ s.Intact := by
  have h : Run ([] ++ [.send [1, 2, 3] false] ++ [.send [4] false] ++ [.written 2 false false] ++
      [.written 1 false false]) _ :=
    .snoc (.snoc (.snoc (.snoc .nil (by decide) rfl) (by decide) rfl) (by decide) rfl) (by decide) rfl
  exact ⟨_, h, by decide, by decide, by decide, (run_intact h).1 (by decide)⟩

end Sending

end GlobalServer
