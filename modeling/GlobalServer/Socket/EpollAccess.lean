import GlobalServer.Lib.Runs

/-!
# A socket and its epoll

One open `SocketImpl`, whose calls to the system succeed: the flags of
`_state`, the operations that wait (`_type`, with a record for each), and what
is registered with epoll. The part of a completion that runs before its handler
is one step; a handler posts what it likes, and when it returns from a read the
write of the same event may still be due.

A record is the handler and the buffer, a `ρ`, or the handler of a connect, a
`κ`. To complete an operation whose record has been cleared ends the run.
-/

namespace GlobalServer.Epoll

/-- `_type`, of a socket that does not accept -/
structure OpType where
  connect : Bool
  read : Bool
  write : Bool
  deriving DecidableEq

/-- What is registered with epoll; an event of a `oneshot` takes the rest away. -/
structure Mask where
  input : Bool
  output : Bool
  oneshot : Bool
  deriving DecidableEq

/-- `epoll_event_t::events` -/
structure Event where
  input : Bool
  output : Bool
  err : Bool
  hup : Bool
  deriving DecidableEq

/-- `pendingRead` and `pendingWrite` are what has been accepted and has not been completed. `reported` are the events that
`epoll_wait` has returned and that are still to be executed, `inRead` those whose read handler runs. -/
structure Socket (κ ρ : Type) where
  connectFlag : Bool
  readFlag : Bool
  writeFlag : Bool
  bindFlag : Bool
  type : OpType
  mask : Option Mask
  cop : Option κ
  rop : Option ρ
  wop : Option ρ
  pendingRead : Option ρ
  pendingWrite : Option ρ
  reported : List Event
  inRead : List Event

inductive Op (κ ρ : Type) where
  | asyncConnect (handler : κ)
  | asyncRecvSome (op : ρ)
  | asyncSendSome (op : ρ)
  | epollWait (event : Event)
  | execOp (event : Event)
  /-- The handler of a read returns to `_DoExecOp`. -/
  | readReturns (event : Event)

namespace Socket

variable {κ ρ : Type}

def init : Socket κ ρ :=
  { connectFlag := false, readFlag := false, writeFlag := false, bindFlag := false, type := ⟨false, false, false⟩
    mask := none, cop := none, rop := none, wop := none, pendingRead := none, pendingWrite := none, reported := []
    inRead := [] }

/-- `CtlEpoll`: only what is not registered can be added, and only what is can be modified. -/
def ctlEpoll (s : Socket κ ρ) (add : Bool) (mask : Mask) : Option (Socket κ ρ) :=
  if s.mask.isNone = add then some { s with mask := some mask } else none

def asyncConnect (s : Socket κ ρ) (handler : κ) : Option (Socket κ ρ) :=
  if s.connectFlag then some s
  else
    let s := { s with connectFlag := true, type := ⟨true, false, false⟩, cop := some handler }
    if s.bindFlag then some s
    else { s with bindFlag := true }.ctlEpoll true ⟨false, true, true⟩

/-- A read that is refused has filled the record before, and clears it. -/
def asyncRecvSome (s : Socket κ ρ) (op : ρ) : Option (Socket κ ρ) :=
  let s := { s with rop := some op }
  if s.readFlag then some { s with rop := none }
  else
    { s with
      readFlag := true, type := ⟨false, true, s.writeFlag⟩, bindFlag := true, pendingRead := some op
    }.ctlEpoll (!s.bindFlag) ⟨true, s.writeFlag, false⟩

def asyncSendSome (s : Socket κ ρ) (op : ρ) : Option (Socket κ ρ) :=
  let s := { s with wop := some op }
  if s.writeFlag then some { s with wop := none }
  else
    { s with
      writeFlag := true, type := ⟨false, s.readFlag, true⟩, bindFlag := true, pendingWrite := some op
    }.ctlEpoll (!s.bindFlag) ⟨s.readFlag, true, false⟩

/-- Whether epoll can report an event: a `oneshot` that has been used reports nothing. -/
def Mask.reports (m : Mask) (event : Event) : Bool :=
  (event.input → m.input) && (event.output → m.output) && (event.input || event.output || event.err || event.hup) &&
    (m.oneshot → m.input || m.output)

def epollWait (s : Socket κ ρ) (event : Event) : Socket κ ρ :=
  match s.mask with
  | none => s
  | some m =>
    if Mask.reports m event then
      { s with
        mask := some (if m.oneshot then { m with input := false, output := false } else m)
        reported := event :: s.reported }
    else s

/-- `ConnectOperation::Complete` -/
def completeConnect (s : Socket κ ρ) : Option (Socket κ ρ) := do
  let _ ← s.cop
  some { s with connectFlag := false, type := { s.type with connect := false }, cop := none }

/-- `WriteOperation::Complete` -/
def completeWrite (s : Socket κ ρ) : Option (Socket κ ρ) := do
  let _ ← s.wop
  { s with
    type := { s.type with write := false }, writeFlag := false, wop := none, pendingWrite := none
  }.ctlEpoll false ⟨s.type.read, false, false⟩

/-- `ReadOperation::Complete` -/
def completeRead (s : Socket κ ρ) : Option (Socket κ ρ) := do
  let _ ← s.rop
  { s with
    type := { s.type with read := false }, readFlag := false, rop := none, pendingRead := none
  }.ctlEpoll false ⟨false, s.type.write, false⟩

/-- The second half of `_DoExecOp`. -/
def execWrite (s : Socket κ ρ) (event : Event) : Option (Socket κ ρ) :=
  if s.type.write && (event.output || event.err || event.hup) then s.completeWrite else some s

/-- `_DoExecOp`, up to the handler of the read if there is one. -/
def execOp (s : Socket κ ρ) (event : Event) : Option (Socket κ ρ) :=
  if s.type.connect then s.completeConnect
  else if s.type.read && (event.input || event.err || event.hup) then
    s.completeRead.map fun s => { s with inRead := event :: s.inRead }
  else s.execWrite event

def step (s : Socket κ ρ) : Op κ ρ → Option (Socket κ ρ)
  | .asyncConnect handler => s.asyncConnect handler
  | .asyncRecvSome op => s.asyncRecvSome op
  | .asyncSendSome op => s.asyncSendSome op
  | .epollWait event => some (s.epollWait event)
  | .execOp event =>
    if event ∈ s.reported then { s with reported := s.reported.erase event }.execOp event else some s
  | .readReturns event =>
    if event ∈ s.inRead then { s with inRead := s.inRead.erase event }.execWrite event else some s

end Socket

end GlobalServer.Epoll
