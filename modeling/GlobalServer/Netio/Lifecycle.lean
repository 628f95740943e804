import GlobalServer.Netio.TcpBaseSocket

/-!
# The life of a socket

A `TcpSocket` begins with `Init`, on the thread that accepted it, and a
`TcpConnector` with the completion of its connect. Its first asynchronous
operation gives a descriptor to one of the threads that wait for events. That
thread completes its operations one after the other, and it is the one that
closes the descriptor and calls `OnDisconnected`, when `IoAccess::Close` has
asked it to. `Close` and `Send` come from any thread, and hold the lock of the
writer as `_WriteHandler` does.
-/

namespace GlobalServer.Lifecycle

open Bytes

inductive Callback where
  | onConnected (error : Bool)
  | onReceiveData
  | onDisconnected
  deriving DecidableEq

/-- `OnConnected`, any number of `OnReceiveData`, `OnDisconnected`, or the beginning of it -/
def Ordered (callbacks : List Callback) : Prop :=
  ∃ error n, callbacks <+: .onConnected error :: (List.replicate n .onReceiveData ++ [.onDisconnected])

/-! ## The descriptor -/

/-- Which of the calls that an asynchronous operation makes succeed. -/
structure Calls where
  setNonBlock : Bool
  /-- there is a thread to give the descriptor to -/
  service : Bool
  epollCtl : Bool
  deriving DecidableEq

structure SocketImpl where
  /-- `_fd` is a descriptor -/
  fd : Bool
  nonblock : Bool
  closeFlag : Bool
  /-- `_epoll` is that of a thread -/
  epoll : Bool
  /-- the requests of the socket in `_closereqs` of that thread -/
  closereqs : Nat
  deriving DecidableEq

namespace SocketImpl

/-- `AsyncRecvSome` and `AsyncSendSome`, and whether there is an error. An operation of the same kind is never posted
twice. -/
def post (impl : SocketImpl) (calls : Calls) : SocketImpl × Bool :=
  if impl.fd = false then (impl, true)
  else if impl.nonblock = false ∧ calls.setNonBlock = false then (impl, true)
  else if impl.epoll = false ∧ calls.service = false then ({ impl with nonblock := true }, true)
  else ({ impl with nonblock := true, epoll := true }, !calls.epollCtl)

/-- `IoAccess::Close`; a descriptor that blocks is closed at once, and what is not bound to a thread is not put into a
queue. -/
def close (impl : SocketImpl) : SocketImpl :=
  if impl.fd = true ∧ impl.closeFlag = false then
    let closed := if impl.nonblock then { impl with closeFlag := true } else { impl with fd := false, nonblock := true }
    if impl.epoll then { closed with closereqs := closed.closereqs + 1 } else closed
  else impl

def doClose (impl : SocketImpl) : SocketImpl :=
  { impl with fd := false, nonblock := true, closeFlag := false, closereqs := impl.closereqs - 1 }

/-- An open descriptor has a thread. -/
def Served (impl : SocketImpl) : Prop := impl.fd = true → impl.closeFlag = false → impl.epoll = true

/-- The descriptor is closed, or marked to be. -/
def Gone (impl : SocketImpl) : Prop := impl.fd = false ∨ impl.closeFlag = true

instance (impl : SocketImpl) : Decidable impl.Served := by
  unfold Served
  infer_instance

instance (impl : SocketImpl) : Decidable impl.Gone := by
  unfold Gone
  infer_instance

end SocketImpl

/-! ## The socket -/

inductive Stage where
  | waiting
  /-- the flag of a connector is set, `OnConnected` is not yet called -/
  | started
  /-- `OnConnected` is called, the first read is not yet posted -/
  | announced
  | done
  deriving DecidableEq

structure Conn where
  connector : Bool
  stage : Stage
  socket : TcpBaseSocket
  impl : SocketImpl
  /-- a read is posted -/
  reading : Bool
  /-- `_ReadHandler` is in `_CutMsgPack` -/
  cutting : Bool
  callbacks : List Callback
  /-- `_Close` has been called -/
  ended : Bool
  /-- the bytes that the system has taken -/
  given : List UInt8
  /-- those of the sends that were accepted, and what these were at the last close of the open descriptor -/
  accepted : List UInt8
  promised : List UInt8
  writeFailed : Bool
  /-- `promised` and `given` at every `Shutdown` of the writing side and every end of the descriptor before a
  write failed -/
  shutdowns : List (List UInt8 × List UInt8)
  deriving DecidableEq

namespace Conn

/-- A socket that has been accepted, or a connector whose `AsyncConnect` has been posted. -/
def start (connector : Bool) : Conn :=
  { connector, stage := .waiting, socket := { TcpBaseSocket.init with flag := .stop }
    impl := { fd := true, nonblock := connector, closeFlag := false, epoll := connector, closereqs := 0 }
    reading := false, cutting := false, callbacks := [], ended := false, given := [], accepted := [], promised := []
    writeFailed := false, shutdowns := [] }

def call (c : Conn) (callback : Callback) : Conn := { c with callbacks := c.callbacks ++ [callback] }

def shutdown (c : Conn) : Conn :=
  if c.writeFailed then c else { c with shutdowns := c.shutdowns ++ [(c.promised, c.given)] }

/-- `_Close` -/
def closeSocket (c : Conn) : Conn :=
  let c' := { c with
    socket := c.socket.closeSocket
    impl := if c.socket.flag ≠ .close ∧ c.socket.writing = false then c.impl.close else c.impl
    ended := true }
  if c'.impl.fd = c.impl.fd then c' else c'.shutdown

def postClose (c : Conn) : Conn := { c with promised := if c.impl.fd then c.accepted else c.promised }.closeSocket

def failWrite (c : Conn) : Conn := { c with writeFailed := true }.closeSocket

def trySendData (c : Conn) (calls : Calls) : Conn × Bool :=
  if c.socket.writing then (c, true)
  else
    let socket := c.socket.swapBuffers
    if 0 < socket.msgbuffer1.length then
      let out := c.impl.post calls
      if out.2 then ({ c with socket, impl := out.1 }.failWrite, false)
      else ({ c with socket := { socket.asyncSendSome with writing := true }, impl := out.1 }, true)
    else ({ c with socket }, false)

/-- `_CheckCanSend` -/
def canSend (c : Conn) (data : List UInt8) : Bool :=
  checkCanSend { started := c.socket.flag = .start, msgbuffer2 := c.socket.msgbuffer2 } (i32 data.length)

def send (c : Conn) (data : List UInt8) (calls : Calls) : Except Fault Conn :=
  if c.canSend data then do
    let mb ← c.socket.msgbuffer2.write data
    .ok ({ c with
      socket := { c.socket with msgbuffer2 := mb }, accepted := c.accepted ++ data }.trySendData calls).1
  else .ok c

/-- `_WriteHandler`, when `tranByte` bytes of the write that was posted first have been taken. -/
def writeHandler (c : Conn) (tranByte : Nat) (error : Bool) (calls : Calls) : Conn :=
  let c := { c with
    socket := { c.socket with writing := false, posted := c.socket.posted.tail }
    given := c.given ++ c.socket.taken tranByte }
  if error = true ∨ tranByte = 0 then c.failWrite
  else
    let out := { c with
      socket := { c.socket with msgbuffer1 := c.socket.msgbuffer1.cutData tranByte } }.trySendData calls
    if out.2 = false ∧ out.1.socket.flag ≠ .start then out.1.shutdown.closeSocket else out.1

def tryRecvData (c : Conn) (calls : Calls) : Conn :=
  let out := c.impl.post calls
  if out.2 then { c with impl := out.1 }.postClose else { c with impl := out.1, reading := true }

/-- `TcpSocket::Init` up to the call of `OnConnected`; `endpoints` tells whether those of the descriptor are there. -/
def init (c : Conn) (endpoints : Bool) : Conn :=
  if endpoints then { c with stage := .announced, socket := { c.socket with flag := .start } }.call (.onConnected false)
  else { c with stage := .done }

/-- `_ConnectHandler` up to the call of `OnConnected`, if it comes to it without an error. -/
def connectHandler (c : Conn) (error endpoints : Bool) : Conn :=
  if error then { c with stage := .done }.call (.onConnected true)
  else if endpoints then { c with stage := .started, socket := { c.socket with flag := .start } }
  else { c with stage := .done }

/-- What follows the call of `OnConnected`. That of a connector throws, and the error is not looked at. -/
def firstRecv (c : Conn) (calls : Calls) : Conn :=
  let c := { c with stage := .done }
  if c.connector then
    let out := c.impl.post calls
    if out.2 then { c with impl := out.1 } else { c with impl := out.1, reading := true }
  else c.tryRecvData calls

/-- `_ReadHandler` up to `_CutMsgPack`; `data` tells whether there are bytes, and no error. -/
def readHandler (c : Conn) (data : Bool) : Conn :=
  let c := { c with reading := false }
  if data = true ∧ c.socket.flag = .start then { c with cutting := true } else c.postClose

/-- `_ReadHandler` after `_CutMsgPack`, which returns `ok` -/
def cutMsgPack (c : Conn) (ok : Bool) (calls : Calls) : Conn :=
  let c := { c with cutting := false }
  if ok then c.tryRecvData calls else c.postClose

def doClose (c : Conn) : Conn := { c with impl := c.impl.doClose }.shutdown.call .onDisconnected

end Conn

/-! ## What can happen to it -/

inductive Event where
  | init (endpoints : Bool)
  | connectHandler (error endpoints : Bool)
  /-- the call of `OnConnected` of a connector -/
  | onConnected
  | firstRecv (calls : Calls)
  | close
  | send (data : List UInt8) (calls : Calls)
  | readHandler (data : Bool)
  | onReceiveData
  | cutMsgPack (ok : Bool) (calls : Calls)
  | writeHandler (tranByte : Nat) (error : Bool) (calls : Calls)
  | doClose
  deriving DecidableEq

/-- The length of a send is a 32-bit word. -/
def Event.Possible : Event → Prop
  | .send data _ => data.length < 2 ^ 32
  | _ => True

instance (e : Event) : Decidable e.Possible := by
  unfold Event.Possible
  cases e <;> infer_instance

namespace Conn

/-- The thread of the descriptor is not in one of its handlers. -/
def Idle (c : Conn) : Prop := c.cutting = false ∧ (c.connector = true → c.stage = .waiting ∨ c.stage = .done)

instance (c : Conn) : Decidable c.Idle := by
  unfold Idle
  infer_instance

/-- A completion calls its handler only when the descriptor has not been closed. -/
def step (c : Conn) : Event → Option Conn
  | .init endpoints =>
    if c.connector = false ∧ c.stage = .waiting ∧ (endpoints = true → c.impl.fd = true) then some (c.init endpoints)
    else none
  | .connectHandler error endpoints =>
    if c.connector = true ∧ c.stage = .waiting ∧ c.impl.fd = true then some (c.connectHandler error endpoints) else none
  | .onConnected =>
    if c.stage = .started then some ({ c with stage := .announced }.call (.onConnected false)) else none
  | .firstRecv calls => if c.stage = .announced then some (c.firstRecv calls) else none
  | .close => some c.postClose
  | .send data calls => (c.send data calls).toOption
  | .readHandler data => if c.reading = true ∧ c.impl.fd = true ∧ c.Idle then some (c.readHandler data) else none
  | .onReceiveData => if c.cutting = true then some (c.call .onReceiveData) else none
  | .cutMsgPack ok calls => if c.cutting = true then some (c.cutMsgPack ok calls) else none
  | .writeHandler tranByte error calls =>
    if c.socket.InFlight tranByte ∧ c.impl.fd = true ∧ c.Idle then
      some (c.writeHandler tranByte error calls)
    else none
  | .doClose => if 0 < c.impl.closereqs ∧ c.Idle then some c.doClose else none

def Reported (c : Conn) : Prop := .onConnected false ∈ c.callbacks ∨ .onConnected true ∈ c.callbacks

instance (c : Conn) : Decidable c.Reported := by
  unfold Reported
  infer_instance

structure Sound (c : Conn) : Prop where
  order : Ordered c.callbacks
  /-- a close takes effect at once, or when the write in flight has come to its end -/
  ended : c.ended = true → c.impl.Gone ∨ c.socket.writing = true
  /-- there is one `OnDisconnected`, or a thread has been asked for it -/
  disconnected : c.Reported → c.impl.Gone → c.callbacks.count .onDisconnected + c.impl.closereqs = 1
  /-- all that was accepted before a close was given to the system before the end -/
  flushed : ∀ p ∈ c.shutdowns, p.1 <+: p.2

/-- Nothing that has been reported is closed before it has a thread, and no descriptor is closed by its thread before
it has been reported, or while a write is in flight that a later close waits for. -/
def Meets (c : Conn) : Event → Prop
  | .close => c.Reported → c.impl.Served
  | .firstRecv calls => c.connector = false → (c.impl.post calls).2 = true → (c.impl.post calls).1.Served
  | .send data calls =>
    c.canSend data = true → c.socket.writing = false → (c.impl.post calls).2 = true → (c.impl.post calls).1.Served
  | .doClose => c.Reported ∧ c.socket.flag ≠ .stop
  | _ => True

instance (c : Conn) (e : Event) : Decidable (c.Meets e) := by
  unfold Meets
  cases e <;> infer_instance

/-- The runs, and those whose steps all meet the condition. -/
abbrev Run (connector : Bool) : List Event → Conn → Prop :=
  Runs.Run (fun c e c' => c.step e = some c') (fun _ _ e => e.Possible) (start connector)

abbrev MeetingRun (connector : Bool) : List Event → Conn → Prop :=
  Runs.Run (fun c e c' => c.step e = some c') (fun _ c e => e.Possible ∧ c.Meets e) (start connector)

end Conn

end GlobalServer.Lifecycle
