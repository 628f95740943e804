import GlobalServer.Lib.Decimal

/-!
# The files of the logger

`logfile` writes to one file at a time, opened for appending, and goes on to
another one when the day of the clock has changed or the file has reached
`_rollsize`. The local time of a clock is a parameter. `files` are all that have
been opened, the present one first, each with what was written to it, call by
call.

`fwrite` may write less than it is asked to. The loop of `write` then gives it
the beginning of the data again.
-/

namespace GlobalServer.LogFile

/-- `tm_year`, `tm_mon` and `tm_mday` -/
structure Day where
  year : Nat
  month : Nat
  day : Nat
  deriving DecidableEq

/-- What a call of `write` has put into a file. -/
structure Record where
  now : Int
  bytes : List UInt8

structure Segment where
  name : List UInt8
  rolltime : Int
  idx : Nat
  records : List Record

def Segment.size (seg : Segment) : Nat := (seg.records.flatMap (·.bytes)).length

structure State where
  filename : List UInt8
  pid : List UInt8
  withpid : Bool
  rollsize : Nat
  writesize : Nat
  logidx : Nat
  rolltime : Int
  lastctime : Int
  files : List Segment

/-- A number of two digits, as `strftime` writes it. -/
def two (n : Nat) : List UInt8 := [UInt8.ofNat (48 + n / 10 % 10), UInt8.ofNat (48 + n % 10)]

/-- `_getcurtime_` -/
def getcurtime (day : Day) : List UInt8 := Decimal.ofNat day.year ++ two day.month ++ two day.day

/-- `.log` -/
def dotLog : List UInt8 := [46, 108, 111, 103]

/-- `_logname_` before it is cut. -/
def fullname (day : Day) (pid filename : List UInt8) (logidx : Nat) (withpid : Bool) : List UInt8 :=
  filename ++ 95 :: (getcurtime day ++ (if withpid then 95 :: pid else []) ++ 95 :: (Decimal.ofNat logidx ++ dotLog))

/-- `_logname_`, which has 100 bytes to write to. -/
def logname (day : Day) (pid filename : List UInt8) (logidx : Nat) (withpid : Bool) : List UInt8 :=
  (fullname day pid filename logidx withpid).take 99

/-- The loop of `write`: what goes to the file when `fwrite` returns one number after another, and how much is left. -/
def fwriteAll (data : List UInt8) : Nat → List Nat → List UInt8 × Nat
  | len, [] => ([], len)
  | len, wsize :: wsizes =>
    if len = 0 ∨ wsize = 0 then ([], len)
    else
      let (bytes, left) := fwriteAll data (len - min wsize len) wsizes
      (data.take (min wsize len) ++ bytes, left)

/-- Every `fwrite` writes all it is given. -/
def Whole (data : List UInt8) (wsizes : List Nat) : Prop := data = [] ∨ ∃ n rest, wsizes = n :: rest ∧ data.length ≤ n

namespace State

/-- To the file that is open. -/
def put (f : State) (record : Record) : State :=
  match f.files with
  | [] => f
  | seg :: files => { f with files := { seg with records := seg.records ++ [record] } :: files }

section

variable (localtime : Int → Day)

/-- `_roll_file`, where `fopen` succeeds. -/
def rollFile (f : State) (newday : Bool) (now : Int) : State :=
  let logidx := if newday then 1 else f.logidx + 1
  let name := logname (localtime now) f.pid f.filename logidx f.withpid
  { f with
    writesize := 0, rolltime := now, logidx
    files := { name, rolltime := now, idx := logidx, records := [] } :: f.files }

def construct (filename pid : List UInt8) (rollsize : Nat) (withpid : Bool) (now : Int) : State :=
  ({ filename, pid, withpid, rollsize, writesize := 0, logidx := 0, rolltime := 0, lastctime := 0, files := [] }
    : State).rollFile localtime true now

/-- The first half of `write`. -/
def checkDay (f : State) (now : Int) : State :=
  if now = f.lastctime then f
  else
    let f := { f with lastctime := now }
    if localtime f.rolltime = localtime now then f else f.rollFile localtime true now

def checkSize (f : State) (now : Int) : State :=
  if f.writesize ≥ f.rollsize then f.rollFile localtime false now else f

def write (f : State) (now : Int) (data : List UInt8) (wsizes : List Nat) : State × Bool :=
  let f := (f.checkDay localtime now).checkSize localtime now
  let (bytes, left) := fwriteAll data data.length wsizes
  ({ f.put { now, bytes } with writesize := f.writesize + bytes.length }, left = 0)

end

end State

/-- A call of `write`. -/
structure Op where
  now : Int
  data : List UInt8
  wsizes : List Nat

def Op.record (op : Op) : Record := { now := op.now, bytes := (fwriteAll op.data op.data.length op.wsizes).1 }

def State.run (localtime : Int → Day) (f : State) (ops : List Op) : State :=
  ops.foldl (fun f op => (f.write localtime op.now op.data op.wsizes).1) f

end GlobalServer.LogFile
