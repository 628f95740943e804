import GlobalServer.Coroutine.Table

/-!
# The tasks and their wrappers

`CoroutineTask` of one thread over the table of its coroutines. A wrapper is a
piece of memory with an address; a coroutine that runs tasks has one, and while
it has nothing to do the address lies in `gfreecovec`. An access to a wrapper
that has been freed ends the run.

Tasks are numbered in the order in which they are submitted.
-/

namespace GlobalServer.Coroutine

/-- `co_task_wrapper` -/
structure Wrapper where
  co_id : Nat
  task : Option Nat

/-- Where `_co_task_func_` stands: the wrapper it works for, and the task it is in unless it is at the head of its
loop. -/
structure Loop where
  wrapper : Nat
  task : Option Nat

/-- The last free wrapper comes first. `brk` is the address of the next new one; `handed` has the tasks that `doTask`
took on, and `ran` those whose function has been called. -/
structure Tasks where
  sched : Schedule Loop
  wrappers : Nat → Option Wrapper
  brk : Nat
  freecovec : List Nat
  alltaskwrapperset : List Nat
  worktasklist : List Nat
  submitted : Nat
  handed : List Nat
  ran : List Nat

inductive Call where
  | addTask
  | doTask
  /-- `doTask(func, p)` -/
  | doTaskFunc
  | yield
  /-- The task's function returns. -/
  | complete
  | resumeTask (co_id : Int)
  | clrTask

namespace Tasks

def init : Tasks :=
  { sched := .init, wrappers := fun _ => none, brk := 0, freecovec := [], alltaskwrapperset := [], worktasklist := []
    submitted := 0, handed := [], ran := [] }

def setWrapper (s : Tasks) (p : Nat) (w : Option Wrapper) : Tasks :=
  { s with wrappers := Function.update s.wrappers p w }

/-- `curid() == M_MAIN_COROUTINE_ID` -/
def main (s : Tasks) : Bool := s.sched.curco.isNone

def getCoTaskWrapper (s : Tasks) : Option (Tasks × Nat) :=
  match s.freecovec with
  | p :: freecovec => do
    let w ← s.wrappers p
    some ({ s with freecovec }.setWrapper p (some { w with task := none }), p)
  | [] => do
    let r ← s.sched.create { wrapper := s.brk, task := none }
    let s' := { s with sched := r.1, brk := s.brk + 1, alltaskwrapperset := s.brk :: s.alltaskwrapperset }
    some (s'.setWrapper s.brk (some { co_id := r.2, task := none }), s.brk)

/-- The end of `_co_task_func_`: the wrapper is freed, and so is the coroutine. -/
def exit (s : Tasks) (p : Nat) : Option Tasks := do
  let _ ← s.wrappers p
  let r ← s.sched.ret
  some ({ s with sched := r.1, alltaskwrapperset := s.alltaskwrapperset.erase p }.setWrapper p none)

/-- The head of the loop of `_co_task_func_`, up to the call of the task. -/
def next (s : Tasks) (p : Nat) : Option Tasks := do
  let w ← s.wrappers p
  match w.task with
  | none => s.exit p
  | some n => do
    let sched ← s.sched.goto { wrapper := p, task := some n }
    some { s with sched, ran := n :: s.ran }

/-- `Coroutine::resume` from the main routine: a coroutine that is in a task goes on in it. -/
def resume (s : Tasks) (co_id : Int) : Option Tasks := do
  let sched ← s.sched.resume co_id
  match sched.curco with
  | none => some { s with sched }
  | some id => do
    let c ← sched.deref id
    match c.data.task with
    | some _ => some { s with sched }
    | none => next { s with sched } c.data.wrapper

/-- What both `doTask` do with a task that they have. -/
def give (s : Tasks) (n : Nat) : Option Tasks := do
  let r ← s.getCoTaskWrapper
  let w ← r.1.wrappers r.2
  (r.1.setWrapper r.2 (some { w with task := some n })).resume w.co_id

def addTask (s : Tasks) : Tasks :=
  { s with worktasklist := s.worktasklist ++ [s.submitted], submitted := s.submitted + 1 }

def doTask (s : Tasks) : Option Tasks :=
  if s.main then
    match s.worktasklist with
    | n :: worktasklist => { s with worktasklist, handed := n :: s.handed }.give n
    | [] => some s
  else some s

def doTaskFunc (s : Tasks) : Option Tasks :=
  let s' := { s with submitted := s.submitted + 1, handed := s.submitted :: s.handed }
  if s.main then s'.give s.submitted else some s'

def yield (s : Tasks) : Option Tasks :=
  match s.sched.curco with
  | none => some s
  | some id => do
    let c ← s.sched.deref id
    let sched ← s.sched.yield c.data
    some { s with sched }

/-- `_co_task_func_` after the call of the task. -/
def complete (s : Tasks) : Option Tasks :=
  match s.sched.curco with
  | none => some s
  | some id => do
    let c ← s.sched.deref id
    let p := c.data.wrapper
    if maxReserveCoroutine ≤ s.alltaskwrapperset.length then s.exit p
    else do
      let w ← s.wrappers p
      let sched ← s.sched.yield { wrapper := p, task := none }
      some ({ s with sched, freecovec := p :: s.freecovec }.setWrapper p (some { w with task := none }))

def resumeTask (s : Tasks) (co_id : Int) : Option Tasks := if s.main then s.resume co_id else some s

/-- The loop of `clrTask` over the wrappers. -/
def destroyAll (wrappers : Nat → Option Wrapper) (ps : List Nat) (sched : Schedule Loop) : Option (Schedule Loop) :=
  ps.foldlM (fun sched p => do
    let w ← wrappers p
    let r ← sched.destroy w.co_id
    some r.1) sched

def clrTask (s : Tasks) : Option Tasks :=
  if s.main then do
    let sched ← destroyAll s.wrappers s.alltaskwrapperset s.sched
    some { s with sched, alltaskwrapperset := [], worktasklist := [] }
  else some s

def step (s : Tasks) : Call → Option Tasks
  | .addTask => some s.addTask
  | .doTask => s.doTask
  | .doTaskFunc => s.doTaskFunc
  | .yield => s.yield
  | .complete => s.complete
  | .resumeTask co_id => s.resumeTask co_id
  | .clrTask => s.clrTask

end Tasks

end GlobalServer.Coroutine
