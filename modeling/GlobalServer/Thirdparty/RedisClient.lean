import GlobalServer.Lib.Resp
import GlobalServer.Thirdparty.RedisReader

/-!
# Commands on a blocking context: `redisCommandArgv`

A command is put at the end of `obuf`; then the buffer is written until it is
empty and the socket is read until the parser has a reply. What the system
calls return is part of a call; where it ends, the call is still blocked.

A connection carries bytes both ways: the server answers the commands that have
come whole, in their order, and what of its answers has not been read yet is
still there for the next `recv`, whichever call makes it.

`wredisCommandArgv` tries once more on another connection when there is no
reply.
-/

namespace GlobalServer.RedisReader

open Bytes Resp

/-! ## The command -/

/-- `countDigits`, which takes four digits at a time -/
def countDigits (v : Nat) : Nat :=
  if v < 10 then 1
  else if v < 100 then 2
  else if v < 1000 then 3
  else if v < 10000 then 4
  else countDigits (v / 10000) + 4
termination_by v

def bulklen (len : Nat) : Nat := 1 + countDigits len + 2 + len + 2

/-- The length that `redisFormatSdsCommandArgv` asserts and returns. -/
def totlen (argv : List (List UInt8)) : Nat :=
  1 + countDigits argv.length + 2 + (argv.map fun arg => bulklen arg.length).sum

/-- `redisFormatSdsCommandArgv` -/
def formatArgv (argv : List (List UInt8)) : List UInt8 :=
  42 :: (Decimal.ofNat argv.length ++ crlf) ++
    argv.flatMap fun arg => 36 :: (Decimal.ofNat arg.length ++ crlf) ++ arg ++ crlf

/-- What `redisAppendCommandArgv` takes: it keeps the length as an `int`. -/
structure Command where
  argv : List (List UInt8)
  short : totlen argv < 2 ^ 31

def Command.bytes (cmd : Command) : List UInt8 := formatArgv cmd.argv

/-! ## The context -/

/-- Which command it is: one of those that `GetConnection` sends on a new connection, or that of a request. -/
inductive Tag where
  | setup (i : Nat)
  | request (i : Nat)

/-- What `send` returns. -/
inductive Send where
  | wrote (n : Nat)
  | interrupted
  | failed (what : List UInt8)

/-- What `recv` returns: so many bytes, or as many as are there. -/
inductive Recv where
  | data (n : Nat)
  | interrupted
  | failed (what : List UInt8)
  | closed

/-- `REDIS_ERR_*` of a context -/
inductive CtxErr where
  | io
  | eof
  | protocol
  deriving DecidableEq

/-- A `redisContext` with `REDIS_BLOCK`, and the connection that it has. -/
structure Context where
  err : Option CtxErr
  errstr : List UInt8
  obuf : List UInt8
  reader : Reader
  conn : Nat
  /-- the commands that have been appended -/
  issued : List (Tag × Command)
  /-- what has been written to the socket -/
  wire : List UInt8
  /-- how many bytes have been read from it -/
  got : Nat

/-- The commands that are whole in the first `n` bytes. -/
def whole : Nat → List (Tag × Command) → List Tag
  | _, [] => []
  | n, (tag, cmd) :: issued =>
    if cmd.bytes.length ≤ n then tag :: whole (n - cmd.bytes.length) issued else []

section
variable (server : Nat → Tag → Value)

namespace Context

def init (conn : Nat) : Context :=
  { err := none, errstr := [], obuf := [], reader := Reader.create, conn, issued := [], wire := [], got := 0 }

/-- What the server sends on the connection. -/
def stream (c : Context) : List UInt8 := encodeAll ((whole c.wire.length c.issued).map (server c.conn))

/-- `__redisSetError` -/
def setError (c : Context) (type : CtxErr) (str : List UInt8) : Context :=
  { c with err := some type, errstr := str.take 127 }

/-- `redisAppendCommandArgv` -/
def appendCommand (c : Context) (tag : Tag) (cmd : Command) : Context :=
  { c with obuf := c.obuf ++ cmd.bytes, issued := c.issued ++ [(tag, cmd)] }

/-- `redisBufferWrite`, when there has been no error and there is something to write -/
def bufferWrite (c : Context) : Send → Context × Bool
  | .wrote n => ({ c with obuf := c.obuf.drop n, wire := c.wire ++ c.obuf.take n }, true)
  | .interrupted => (c, true)
  | .failed what => (c.setError .io what, false)

def eofError : List UInt8 := "Server closed the connection".toUTF8.toList

/-- `redisBufferRead`, when there has been no error -/
def bufferRead (c : Context) : Recv → Context × Bool
  | .data n =>
    let bytes := ((c.stream server).drop c.got).take n
    let (reader, ok) := c.reader.feed bytes
    let c := { c with reader, got := c.got + bytes.length }
    if ok then (c, true) else (c.setError .protocol reader.errstr, false)
  | .interrupted => (c, true)
  | .failed what => (c.setError .io what, false)
  | .closed => (c.setError .eof eofError, false)

/-- `redisGetReplyFromReader` -/
def getReplyFromReader (c : Context) : Except Fault (Context × Option Obj × Bool) := do
  let (reader, reply, ok) ← c.reader.getReply
  if ok then .ok ({ c with reader }, reply, true)
  else .ok ({ c with reader }.setError .protocol reader.errstr, none, false)

/-- `do { redisBufferWrite } while (!wdone)`: whether it came to its end, or `none` while it is blocked. -/
def writeAll (c : Context) (sends : List Send) : Option (Context × Bool) :=
  if c.err.isSome then some (c, false)
  else if c.obuf = [] then some (c, true)
  else
    match sends with
    | [] => none
    | x :: sends =>
      let (c, ok) := c.bufferWrite x
      if ok then writeAll c sends else some (c, false)

/-- `redisGetReplyFromReader`, and what comes `next` where it has no reply yet. -/
def replyOr (c : Context) (next : Context → Except Fault (Option (Context × Option Obj))) :
    Except Fault (Option (Context × Option Obj)) := do
  let (c, aux, ok) ← c.getReplyFromReader
  if !ok then .ok (some (c, none))
  else
    match aux with
    | some o => .ok (some (c, some o))
    | none => next c

/-- `do { redisBufferRead; redisGetReplyFromReader } while (aux == NULL)` -/
def readReply (c : Context) (recvs : List Recv) : Except Fault (Option (Context × Option Obj)) :=
  if c.err.isSome then .ok (some (c, none))
  else
    match recvs with
    | [] => .ok none
    | x :: recvs =>
      let (c, ok) := c.bufferRead server x
      if !ok then .ok (some (c, none)) else c.replyOr fun c => readReply c recvs

/-- `redisGetReply`: the reply, or none where it returned `REDIS_ERR`. -/
def getReply (c : Context) (sends : List Send) (recvs : List Recv) : Except Fault (Option (Context × Option Obj)) :=
  c.replyOr fun c =>
    match c.writeAll sends with
    | none => .ok none
    | some (c, false) => .ok (some (c, none))
    | some (c, true) => c.readReply server recvs

end Context

/-- What the system does in one try of a command. -/
structure Try where
  sends : List Send
  recvs : List Recv

/-- `redisCommandArgv` -/
def Context.commandArgv (c : Context) (tag : Tag) (cmd : Command) (t : Try) :
    Except Fault (Option (Context × Option Obj)) := (c.appendCommand tag cmd).getReply server t.sends t.recvs

/-! ## The connection -/

/-- What `_auth` and `_selectdb` send on a new connection. -/
inductive Setup where
  | auth (cmd : Command)
  | select (cmd : Command)

def Setup.command : Setup → Command
  | .auth cmd => cmd
  | .select cmd => cmd

/-- `strcasecmp` against `"OK"` -/
def isOk (s : List UInt8) : Bool :=
  match s with
  | [a, b] => (a = 79 ∨ a = 111) ∧ (b = 75 ∨ b = 107)
  | _ => false

/-- Where they do not throw. -/
def Setup.accepts : Setup → Obj → Bool
  | .auth _, .string .error _ => false
  | .auth _, _ => true
  | .select _, .string .status s => isOk s
  | .select _, _ => false

/-- The commands for a new connection, the `i`th of them first: the context, unless one of them throws. -/
def setUp (c : Context) (i : Nat) : List Setup → List Try → Except Fault (Option (Option Context))
  | [], _ => .ok (some (some c))
  | s :: setup, tries => do
    match ← c.commandArgv server (.setup i) s.command (tries.headD { sends := [], recvs := [] }) with
    | none => .ok none
    | some (_, none) => .ok (some none)
    | some (c, some reply) => if s.accepts reply then setUp c (i + 1) setup tries.tail else .ok (some none)

/-- How it goes when a connection is opened. -/
structure Open where
  connects : Bool
  tries : List Try

/-- `GetConnection` where the pool has none: the new connection, unless it throws. -/
def openConnection (setup : List Setup) (conn : Nat) (o : Open) :
    Except Fault (Option (Option Context)) :=
  if o.connects then setUp server (Context.init conn) 0 setup o.tries else .ok (some none)

/-- A request of one key, and how it goes. -/
structure Call where
  command : Command
  opening : Open
  first : Try
  again : Open
  second : Try

/-- The pool, and how many connections there have been. -/
structure Pool where
  pooled : Option Context
  opened : Nat

/-- `GetConnection`, with the context if it does not throw. -/
def getConnection (setup : List Setup) (p : Pool) (o : Open) : Except Fault (Option (Pool × Option Context)) :=
  match p.pooled with
  | some c => .ok (some (p, some c))
  | none => do
    match ← openConnection server setup p.opened o with
    | none => .ok none
    | some c => .ok (some ({ pooled := c, opened := p.opened + 1 }, c))

/-- `wredisCommandArgv` on a context of the pool, and what `Command` does when it has no reply. -/
def command (setup : List Setup) (p : Pool) (c : Context) (i : Nat) (k : Call) :
    Except Fault (Option (Pool × Option Obj)) := do
  match ← c.commandArgv server (.request i) k.command k.first with
  | none => .ok none
  | some (c, some reply) => .ok (some ({ p with pooled := some c }, some reply))
  | some (_, none) =>
    match ← getConnection server setup { p with pooled := none } k.again with
    | none => .ok none
    | some (p, none) => .ok (some (p, none))
    | some (p, some c) =>
      match ← c.commandArgv server (.request i) k.command k.second with
      | none => .ok none
      | some (c, some reply) => .ok (some ({ p with pooled := some c }, some reply))
      | some (_, none) => .ok (some ({ p with pooled := none }, none))

def request (setup : List Setup) (p : Pool) (i : Nat) (k : Call) : Except Fault (Option (Pool × Option Obj)) := do
  match ← getConnection server setup p k.opening with
  | none => .ok none
  | some (p, none) => .ok (some (p, none))
  | some (p, some c) => command server setup p c i k

/-- What comes of requests, one after the other, up to one that is still blocked. -/
def session (setup : List Setup) (p : Pool) (i : Nat) : List Call → Except Fault (List (Option Obj))
  | [] => .ok []
  | k :: calls => do
    match ← request server setup p i k with
    | none => .ok []
    | some (p, o) => (session setup p (i + 1) calls).map fun l => o :: l

end

end GlobalServer.RedisReader
