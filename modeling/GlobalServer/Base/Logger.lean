import Mathlib.Logic.Function.Basic

/-!
# The logger

`logger`: threads put their lines into a ring of buffers under `_mutex`, and
the thread `dump` writes one buffer after another to the file, outside the
mutex. What runs under the mutex is one step, and so is each stretch of `dump`
between two places where another thread can come in.

A buffer is the list of what has been appended to it.
-/

namespace GlobalServer.Logger

abbrev Line := List UInt8

/-- `buffer_circular::buffer_type` -/
def bufferSize : Nat := 512 * 1024

inductive Status where
  | free
  | full
  deriving DecidableEq

/-- `buffer_node` -/
structure Node where
  buffer : List Line
  status : Status

namespace Node

def length (b : Node) : Nat := b.buffer.flatten.length

def avail (b : Node) : Nat := bufferSize - b.length

def append (b : Node) (data : Line) : Node := { b with buffer := b.buffer ++ [data.take b.avail] }

end Node

/-- Where `dump` stands: before the test of its loop, before the first lock, in `wait`, before it writes, before the
second lock, or at its end. -/
inductive At where
  | loop
  | enter
  | wait
  | write
  | clear
  | done
  deriving DecidableEq

/-- `output` is what the file has got; `accepted` are the lines that `log` has put into a buffer, and `notices` counts
the times it has written `_logerror`. -/
structure State where
  node_cnt : Nat
  node : Nat → Node
  producer : Nat
  consumer : Nat
  run : Bool
  pos : At
  output : List Line
  accepted : List Line
  notices : Nat

/-- After `setfilename`: `dump` has set `_run`. -/
def start (node_cnt : Nat) : State :=
  { node_cnt, node := fun _ => { buffer := [], status := .free }, producer := 0, consumer := 0, run := true, pos := .loop
    output := [], accepted := [], notices := 0 }

namespace State

def next (s : State) (i : Nat) : Nat := (i + 1) % s.node_cnt

def setNode (s : State) (i : Nat) (b : Node) : State := { s with node := Function.update s.node i b }

def discard (s : State) : State := { s with notices := s.notices + 1 }

def put (s : State) (data : Line) : State :=
  { s.setNode s.producer ((s.node s.producer).append data) with accepted := s.accepted ++ [data] }

/-- The producer's buffer is declared full, and the producer goes on to the next. -/
def turn (s : State) : State :=
  { s.setNode s.producer { s.node s.producer with status := .full } with producer := s.next s.producer }

def log (s : State) (data : Line) : State :=
  if (s.node s.producer).status = .full then s.discard
  else if (s.node s.producer).avail > data.length then s.put data
  else if (s.turn.node s.turn.producer).status = .full then s.turn.discard
  else s.turn.put data

/-- The buffer of `_consumer` is going to be written. -/
def take (s : State) : State :=
  { s with producer := if s.consumer = s.producer then s.next s.producer else s.producer, pos := .write }

/-- The buffer of `_consumer` has been written. -/
def release (s : State) : State :=
  { s.setNode s.consumer { buffer := [], status := .free } with consumer := s.next s.consumer, pos := .loop }

/-- The next step of `dump`; a `wait` may end at any time. -/
def dump (s : State) : State :=
  match s.pos with
  | .loop => { s with pos := if s.run then .enter else .done }
  | .enter => if (s.node s.consumer).status = .free then { s with pos := .wait } else s.take
  | .wait =>
    if (s.node s.consumer).status = .free then
      if (s.node s.consumer).length > 0 then (s.setNode s.consumer { s.node s.consumer with status := .full }).take
      else { s with pos := .loop }
    else s.take
  | .write => { s with output := s.output ++ (s.node s.consumer).buffer, pos := .clear }
  | .clear => s.release
  | .done => s

/-- `stop`, up to the `join`. -/
def stop (s : State) : State := { s with run := false }

end State

inductive Op where
  | log (data : Line)
  | dump

def step (s : State) : Op → State
  | .log data => s.log data
  | .dump => s.dump

def run (s : State) (ops : List Op) : State := ops.foldl step s

/-- The lines that threads have tried to log. -/
def lines (ops : List Op) : List Line := ops.filterMap fun
  | .log data => some data
  | .dump => none

def dumps (ops : List Op) : Nat := ops.countP fun
  | .log _ => false
  | .dump => true

end GlobalServer.Logger
