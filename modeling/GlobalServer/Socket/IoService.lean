import Mathlib.Algebra.Group.Nat.Defs
import Mathlib.Logic.Function.Basic
import Mathlib.Data.List.Nodup

/-!
# The loops of the io service

`EpollService` with any number of threads in `Run`, each with its epoll, and
sockets that any thread opens, uses and closes. What a thread does under one
lock is one step, and the steps of all threads come in any order. An event is
executed as a whole here: what it does to the operations of its socket is in
`EpollAccess`, and what its handler calls are steps of their own.

A descriptor is closed in `_DoClose`, which a loop calls between two batches of
events, unless the socket is a blocking one. `gen` counts the descriptors a
socket has had, so that an event and a close request can say which one they are
about.

The number of an epoll is the kernel's choice. When it gives one that another
loop has had, `_implmap` leads the sockets of that loop to the new one: what is
said of requests and events needs `NewEpolls`.
-/

namespace GlobalServer.IoService

/-- `SocketImpl::core`. `registered` is what the kernel knows, and an object that is `destroyed` calls nothing more. -/
structure Core where
  epoll : Option Nat
  fd : Option Nat
  block : Bool
  bind : Bool
  closeFlag : Bool
  registered : Bool
  destroyed : Bool
  gen : Nat

/-- `ConstructImpl` on a new core. -/
def Core.construct : Core :=
  { epoll := none, fd := none, block := true, bind := false, closeFlag := false, registered := false, destroyed := false
    gen := 0 }

/-- A close request, whose handler is an `η`. -/
structure SocketClose (η : Type) where
  impl : Nat
  gen : Nat
  handler : Option η

/-- What `epoll_wait` reports: an event of a socket, or one of the operations that `Stop` has posted. -/
inductive Item where
  | event (impl gen : Nat)
  | finish (n : Nat)
  deriving DecidableEq

/-- Where a thread is in `_DoRun`. -/
inductive Phase (η : Type) where
  | idle
  | top
  | closing (closereqs : List (SocketClose η))
  /-- The descriptor is closed, and the handler comes next. -/
  | handling (cls : SocketClose η) (closereqs : List (SocketClose η))
  | wait
  | batch (items : List Item) (brk : Bool)
  | leaving
  /-- In `_ReleaseIoImpl`, between its two locks. -/
  | released

/-- `IoServiceImpl`, and where its thread is. -/
structure Impl (η : Type) where
  handler : Option Nat
  closereqs : List (SocketClose η)
  finishes : List Nat
  phase : Phase η

/-- `fds` is who has each open descriptor. `posting` are the calls of `Close` between their two locks. The requests that
were made, those that were carried out and those that `_ReleaseIoImpl` deleted are kept for the statements, and so are
the numbers of all epolls and each loop that was given a socket. -/
structure State (η : Type) where
  core : Nat → Core
  fds : Nat → Option Nat
  impl : Nat → Impl η
  implmap : Nat → Option Nat
  implvector : List Nat
  implidx : Nat
  posting : List (Nat × SocketClose η)
  given : List Nat
  finishes : Nat
  made : List (SocketClose η)
  done : List (SocketClose η)
  deleted : List (SocketClose η)
  assigned : List Nat

inductive Op (η : Type) where
  | openFd (k fd : Nat)
  /-- `g_accept` into the socket of a new object. -/
  | accept (k fd : Nat)
  /-- An `Async` call that no operation in progress refuses; `modifies` is a read or a write. -/
  | async (k : Nat) (modifies ok : Bool)
  | close (k : Nat) (handler : Option η)
  | post (i : Nat)
  | destroy (k : Nat)
  | stop
  /-- `h` is the number of the epoll if the thread has not run before. -/
  | run (l h : Nat)
  | swap (l : Nat)
  | doClose (l : Nat)
  | handled (l : Nat)
  | epollWait (l : Nat) (items : List Item)
  | waitFailed (l : Nat)
  | execOp (l : Nat)
  | turn (l : Nat)
  /-- `h` is the number of the new epoll. -/
  | release (l h : Nat)
  | unlink (l : Nat)

namespace State

variable {η : Type}

def init : State η :=
  { core := fun _ => Core.construct, fds := fun _ => none
    impl := fun _ => { handler := none, closereqs := [], finishes := [], phase := .idle }
    implmap := fun _ => none, implvector := [], implidx := 0, posting := [], given := [], finishes := 0
    made := [], done := [], deleted := [], assigned := [] }

def setCore (s : State η) (k : Nat) (c : Core) : State η := { s with core := Function.update s.core k c }

def setImpl (s : State η) (l : Nat) (simpl : Impl η) : State η := { s with impl := Function.update s.impl l simpl }

def setPhase (s : State η) (l : Nat) (phase : Phase η) : State η := s.setImpl l { s.impl l with phase }

/-! ## The sockets -/

/-- The kernel gives a descriptor that nobody has. -/
def giveFd (s : State η) (k fd : Nat) : State η :=
  let c := s.core k
  if c.fd = none ∧ c.destroyed = false ∧ s.fds fd = none then
    { s.setCore k { c with fd := some fd, gen := c.gen + 1 } with fds := Function.update s.fds fd (some k) }
  else s

/-- The first half of `CtlEpoll`: a socket that has no loop gets the next one. -/
def assign (s : State η) (k : Nat) : State η :=
  match s.implvector[(s.implidx + 1) % 2 ^ 32 % s.implvector.length]? with
  | none => s
  | some l =>
    { s.setCore k { s.core k with epoll := (s.impl l).handler } with
      implidx := s.implidx + 1, assigned := l :: s.assigned }

/-- `CtlEpoll`, and whether it succeeded: only what is not registered can be added, and only what is can be modified. -/
def ctlEpoll (s : State η) (k : Nat) (add ok : Bool) : State η × Bool :=
  let s := if add ∧ (s.core k).epoll = none then s.assign k else s
  let c := s.core k
  if c.epoll.isSome ∧ ok ∧ c.registered = !add then (s.setCore k { c with registered := true }, true) else (s, false)

/-- `AsyncAccept`, `AsyncConnect`, `AsyncRecvSome` and `AsyncSendSome`. -/
def async (s : State η) (k : Nat) (modifies ok : Bool) : State η :=
  let c := s.core k
  if c.fd = none ∨ c.destroyed then s
  else if c.bind ∧ !modifies then s.setCore k { c with block := false }
  else
    let (s, ok) := (s.setCore k { c with block := false, bind := true }).ctlEpoll k (!c.bind) ok
    if ok then s else s.setCore k { s.core k with bind := false }

/-- `g_closesocket`, and the state of a core that has no descriptor. -/
def closeFd (s : State η) (k : Nat) : State η :=
  let c := s.core k
  { s.setCore k { c with fd := none, block := false, bind := false, closeFlag := false, registered := false } with
    fds := match c.fd with
      | none => s.fds
      | some fd => Function.update s.fds fd none }

/-- `Close` under the lock of the socket. -/
def close (s : State η) (k : Nat) (handler : Option η) : State η :=
  let c := s.core k
  if c.fd = none ∨ c.closeFlag ∨ c.destroyed then s
  else
    let simpl := c.epoll.bind s.implmap
    let s := if c.block then s.closeFd k else s.setCore k { c with closeFlag := true }
    match simpl with
    | none => s
    | some l =>
      let cls : SocketClose η := { impl := k, gen := c.gen, handler }
      { s with posting := (l, cls) :: s.posting, made := cls :: s.made }

/-- `Close` under the lock of the loop. -/
def post (s : State η) (i : Nat) : State η :=
  match s.posting[i]? with
  | none => s
  | some (l, cls) =>
    { s.setImpl l { s.impl l with closereqs := (s.impl l).closereqs ++ [cls] } with posting := s.posting.eraseIdx i }

/-- `~BasicSocket` after its `Close`: `DestroyImpl`. -/
def destroy (s : State η) (k : Nat) : State η :=
  let c := s.core k
  if c.fd = none ∨ c.closeFlag then s.setCore k { c with block := true, bind := false, destroyed := true } else s

/-! ## The loops -/

/-- `_CreateIoImpl`, in a thread that may have run before. -/
def run (s : State η) (l h : Nat) : State η :=
  match (s.impl l).phase with
  | .idle =>
    let h := (s.impl l).handler.getD h
    { s.setImpl l { s.impl l with handler := some h, phase := .top } with
      implmap := Function.update s.implmap h (some l)
      implvector := s.implvector ++ [l]
      given := h :: s.given }
  | _ => s

/-- `_DoClose`, which takes what has been posted. -/
def swap (s : State η) (l : Nat) : State η :=
  match (s.impl l).phase with
  | .top => s.setImpl l { s.impl l with closereqs := [], phase := .closing (s.impl l).closereqs }
  | _ => s

/-- The loop of `_DoClose` up to the handler; after the last request comes `epoll_wait`. -/
def doClose (s : State η) (l : Nat) : State η :=
  match (s.impl l).phase with
  | .closing [] => s.setPhase l .wait
  | .closing (cls :: closereqs) => (s.closeFd cls.impl).setPhase l (.handling cls closereqs)
  | _ => s

def handled (s : State η) (l : Nat) : State η :=
  match (s.impl l).phase with
  | .handling cls closereqs => { s.setPhase l (.closing closereqs) with done := cls :: s.done }
  | _ => s

/-- What the epoll of a loop can report. -/
def Reports (s : State η) (l : Nat) : Item → Prop
  | .event k gen => (s.core k).registered ∧ (s.core k).gen = gen ∧ (s.core k).epoll = (s.impl l).handler
  | .finish n => n ∈ (s.impl l).finishes

instance (s : State η) (l : Nat) : (item : Item) → Decidable (s.Reports l item)
  | .event _ _ => inferInstanceAs (Decidable (_ ∧ _ ∧ _))
  | .finish _ => inferInstanceAs (Decidable (_ ∈ _))

/-- A time-out is a batch of nothing. -/
def epollWait (s : State η) (l : Nat) (items : List Item) : State η :=
  match (s.impl l).phase with
  | .wait =>
    if items.length ≤ 128 ∧ items.Nodup ∧ ∀ item ∈ items, s.Reports l item then s.setPhase l (.batch items false) else s
  | _ => s

def waitFailed (s : State η) (l : Nat) : State η :=
  match (s.impl l).phase with
  | .wait => s.setPhase l .leaving
  | _ => s

/-- One item of the batch; that of a `Stop` is freed. -/
def execOp (s : State η) (l : Nat) : State η :=
  match (s.impl l).phase with
  | .batch (.event _ _ :: items) brk => s.setPhase l (.batch items brk)
  | .batch (.finish n :: items) _ =>
    s.setImpl l { s.impl l with finishes := (s.impl l).finishes.erase n, phase := .batch items true }
  | _ => s

def turn (s : State η) (l : Nat) : State η :=
  match (s.impl l).phase with
  | .batch [] true => s.setPhase l .leaving
  | .batch [] false => s.setPhase l .top
  | _ => s

/-- `_ReleaseIoImpl` under the lock of the loop. Its epoll is closed, and there is a new one. -/
def release (s : State η) (l h : Nat) : State η :=
  match (s.impl l).phase with
  | .leaving =>
    { s.setImpl l { handler := some h, closereqs := [], finishes := [], phase := .released } with
      given := h :: s.given, deleted := (s.impl l).closereqs ++ s.deleted }
  | _ => s

/-- `_ReleaseIoImpl` under the lock of the service. -/
def unlink (s : State η) (l : Nat) : State η :=
  match (s.impl l).phase with
  | .released => { s.setPhase l .idle with implvector := s.implvector.erase l }
  | _ => s

/-- `Stop` at one loop. -/
def stopOne (s : State η) (l : Nat) : State η :=
  { s.setImpl l { s.impl l with finishes := s.finishes :: (s.impl l).finishes } with finishes := s.finishes + 1 }

def stop (s : State η) : State η := s.implvector.foldl stopOne s

def step (s : State η) : Op η → State η
  | .openFd k fd => s.giveFd k fd
  | .accept k fd => s.giveFd k fd
  | .async k modifies ok => s.async k modifies ok
  | .close k handler => s.close k handler
  | .post i => s.post i
  | .destroy k => s.destroy k
  | .stop => s.stop
  | .run l h => s.run l h
  | .swap l => s.swap l
  | .doClose l => s.doClose l
  | .handled l => s.handled l
  | .epollWait l items => s.epollWait l items
  | .waitFailed l => s.waitFailed l
  | .execOp l => s.execOp l
  | .turn l => s.turn l
  | .release l h => s.release l h
  | .unlink l => s.unlink l

def steps (s : State η) (ops : List (Op η)) : State η := ops.foldl step s

/-- A number that the step gives to an epoll has not been given before. -/
def NewEpoll (s : State η) : Op η → Prop
  | .run l h => (s.impl l).handler = none → h ∉ s.given
  | .release _ h => h ∉ s.given
  | _ => True

/-- Over the run the kernel gives no number to two epolls. -/
def NewEpolls (s : State η) : List (Op η) → Prop
  | [] => True
  | op :: ops => s.NewEpoll op ∧ (s.step op).NewEpolls ops

instance NewEpoll.decidable (s : State η) : (op : Op η) → Decidable (s.NewEpoll op)
  | .run _ _ => inferInstanceAs (Decidable (_ → _))
  | .release _ _ => inferInstanceAs (Decidable (_ ∉ _))
  | .openFd _ _ | .accept _ _ | .async _ _ _ | .close _ _ | .post _ | .destroy _ | .stop | .swap _ | .doClose _ | .handled _
  | .epollWait _ _ | .waitFailed _ | .execOp _ | .turn _ | .unlink _ => inferInstanceAs (Decidable True)

instance NewEpolls.decidable : (s : State η) → (ops : List (Op η)) → Decidable (s.NewEpolls ops)
  | _, [] => inferInstanceAs (Decidable True)
  | s, op :: ops =>
    have : Decidable ((s.step op).NewEpolls ops) := NewEpolls.decidable (s.step op) ops
    inferInstanceAs (Decidable (s.NewEpoll op ∧ (s.step op).NewEpolls ops))

end State

end GlobalServer.IoService
