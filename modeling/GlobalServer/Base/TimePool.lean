import GlobalServer.Lib.Bytes
import GlobalServer.Lib.OrdMap
import Mathlib.Logic.Function.Basic

/-!
# The timer wheel: `TimerPool`

Buckets of a tenth of a second, each a `std::map` from expiry to node that is
created and deleted on demand. `Update` takes the nodes that are due out of
one bucket after another and runs their callbacks, and a callback may call
`AddTimer` and `CancelTimer`. So `Update` is cut here where a callback starts
and where it returns, and `Updating` says how far it has come.

Maps and nodes live on a heap, so that a use after `delete` or `Dealloc` is
seen. A bucket is named by `big * 10 + small`.
-/

namespace GlobalServer

open Bytes

/-- One bucket's map: expiry and node. -/
abbrev TimeNodeMap := List (Int × Nat)

structure TimeNode (γ : Type) where
  timerId : Nat
  expire : Int
  cb : γ

/-- Where `Update` stands in the bucket it is at. -/
inductive UpdatePc where
  /-- about to look at the bucket -/
  | bucket
  /-- the nodes that are due have been taken out of `pmap` -/
  | nodelist (pmap : Nat) (nodes : List Nat)
  /-- the callback of `node` is running -/
  | callback (pmap node : Nat) (nodes : List Nat)
  deriving DecidableEq

/-- The locals of an `Update` under way. -/
structure Updating where
  now : Int
  bigBucket : Int
  smallBucket : Int
  sIdx : Int
  pc : UpdatePc

structure TimerPool (γ : Type) where
  maxIntervalDay : Int
  bucket : Int → Option Nat
  begTime : Int
  bigBucket : Int
  smallBucket : Int
  curTimerId : Nat
  /-- the maps that are not deleted -/
  maps : Nat → Option TimeNodeMap
  mapTop : Nat
  /-- the nodes that are not deallocated -/
  nodes : Nat → Option (TimeNode γ)
  nodeTop : Nat
  updating : Option Updating

def bigBucketCnt : Int := 24 * 3600

def smallBucketCnt : Int := 10

def Updating.eIdx (u : Updating) : Int := u.bigBucket * 10 + u.smallBucket

namespace TimerPool

variable {γ : Type}

/-- `_max_interval_day` as the constructor takes it -/
def dayCount (maxIntervalDay : Int) : Int := if 7 < maxIntervalDay ∨ maxIntervalDay < 0 then 1 else maxIntervalDay

/-- A pool without timers, made at the reading `now`. -/
def new (maxIntervalDay now : Int) : TimerPool γ :=
  { maxIntervalDay
    bucket := fun _ => none
    begTime := now
    bigBucket := 0
    smallBucket := 0
    curTimerId := 1
    maps := fun _ => none
    mapTop := 0
    nodes := fun _ => none
    nodeTop := 0
    updating := none }

/-- The constructor. With no days at all it initialises buckets past its block. -/
def init (maxIntervalDay now : Int) : Except Fault (TimerPool γ) :=
  if dayCount maxIntervalDay = 0 then .error .outOfBounds else .ok (new (dayCount maxIntervalDay) now)

def calcBucket (p : TimerPool γ) (now interval : Int) : Int × Int :=
  let intervalMil := i32 (now - p.begTime + interval)
  let intervalSec := intervalMil.tdiv 1000
  (intervalSec.tmod (bigBucketCnt * p.maxIntervalDay), ((intervalMil.tmod 1000).tdiv 100).tmod 10)

/-- `pp[small]` of `_bucket[big]`: the constructor has set up the buckets of one day. -/
def slot (p : TimerPool γ) (big small : Int) : Except Fault (Option Nat) :=
  if 0 ≤ big ∧ big < bigBucketCnt ∧ 0 ≤ small ∧ small < smallBucketCnt then .ok (p.bucket (big * 10 + small))
  else .error .outOfBounds

def readMap (p : TimerPool γ) (pmap : Nat) : Except Fault TimeNodeMap :=
  match p.maps pmap with
  | some l => .ok l
  | none => .error .useAfterFree

def readNode (p : TimerPool γ) (node : Nat) : Except Fault (TimeNode γ) :=
  match p.nodes node with
  | some nd => .ok nd
  | none => .error .useAfterFree

def setMap (p : TimerPool γ) (pmap : Nat) (l : TimeNodeMap) : TimerPool γ :=
  { p with maps := Function.update p.maps pmap (some l) }

/-- `new TimeNodeMap`, stored in its bucket -/
def newMap (p : TimerPool γ) (idx : Int) : TimerPool γ :=
  { p with
    maps := Function.update p.maps p.mapTop (some [])
    mapTop := p.mapTop + 1
    bucket := Function.update p.bucket idx (some p.mapTop) }

/-- `delete pmap; pp[s] = 0` -/
def deleteMap (p : TimerPool γ) (pmap : Nat) (idx : Int) : TimerPool γ :=
  { p with maps := Function.update p.maps pmap none, bucket := Function.update p.bucket idx none }

/-- `ObjectPool<TimeNode>::Dealloc` -/
def dealloc (p : TimerPool γ) (node : Nat) : TimerPool γ :=
  { p with nodes := Function.update p.nodes node none }

/-- The pool with a map in the bucket, and the map. -/
def bucketMap (p : TimerPool γ) (idx : Int) : Option Nat → TimerPool γ × Nat
  | some pmap => (p, pmap)
  | none => (p.newMap idx, p.mapTop)

/-- `_cur_timer_id` as the next timer gets it -/
def nextTimerId (p : TimerPool γ) : Nat := if p.curTimerId = 0xFFFFFFFE then 1 else p.curTimerId

def timerIdAt (p : TimerPool γ) (idx : Int) : Nat := idx.toNat * 2 ^ 32 + p.nextTimerId

/-- `AddTimer` once the bucket's map is there; `insert` keeps a node that has the same expiry. -/
def addNode (p : TimerPool γ) (pmap : Nat) (idx expire : Int) (func : γ) (l : TimeNodeMap) : TimerPool γ :=
  { p with
    curTimerId := p.nextTimerId + 1
    nodes := Function.update p.nodes p.nodeTop (some { timerId := p.timerIdAt idx, expire := expire, cb := func })
    nodeTop := p.nodeTop + 1
    maps := Function.update p.maps pmap (some (OrdMap.insert expire p.nodeTop l)) }

/-- `AddTimer`, with the reading `now` it takes of the clock -/
def addTimer (p : TimerPool γ) (now interval : Int) (func : γ) : Except Fault (TimerPool γ × Nat) :=
  if interval ≤ 0 then .ok (p, 0)
  else if bigBucketCnt * p.maxIntervalDay * 1000 < interval then .ok (p, 0)
  else do
    let b := p.calcBucket now interval
    let idx := b.1 * 10 + b.2
    let pp ← p.slot b.1 b.2
    let q := p.bucketMap idx pp
    let l ← q.1.readMap q.2
    .ok (q.1.addNode q.2 idx (now + interval) func l, p.timerIdAt idx)

/-- The loop of `CancelTimer` over one map. -/
def findTimer (p : TimerPool γ) (id : Nat) : TimeNodeMap → Except Fault (Option (Int × Nat))
  | [] => .ok none
  | e :: l => do
    let nd ← p.readNode e.2
    if nd.timerId = id then .ok (some e) else findTimer p id l

/-- The high word of an id, as the `int` it is put in. -/
def highWord (id : Nat) : Int := i32 ((id / 2 ^ 32 % 2 ^ 32 : Nat) : Int)

def cancelTimer (p : TimerPool γ) (id : Nat) : Except Fault (TimerPool γ × Int) := do
  let idx := highWord id
  let pp ← p.slot (idx.tdiv 10) (idx.tmod 10)
  match pp with
  | none => .ok (p, -1)
  | some pmap => do
    let l ← p.readMap pmap
    let found ← p.findTimer id l
    match found with
    | none => .ok (p, -1)
    | some e =>
      let p := p.dealloc e.2
      let l := l.erase e
      .ok (if l.isEmpty then p.deleteMap pmap idx else p.setMap pmap l, 0)

/-! ## `Update` -/

/-- The entry of `Update`. -/
def beginUpdate (p : TimerPool γ) (now : Int) : TimerPool γ :=
  let b := p.calcBucket now 0
  { p with
    updating := some
      { now := now, bigBucket := b.1, smallBucket := b.2, sIdx := p.bigBucket * 10 + p.smallBucket, pc := .bucket } }

/-- What a step of `Update` shows outside. -/
inductive Shown (γ : Type) where
  | nothing
  /-- a callback is called -/
  | callback (node : Nat) (cb : γ)
  /-- `Update` returns -/
  | done
  deriving DecidableEq

def goto (p : TimerPool γ) (u : Updating) (pc : UpdatePc) : TimerPool γ := { p with updating := some { u with pc } }

def nextBucket (p : TimerPool γ) (u : Updating) : TimerPool γ :=
  { p with updating := some { u with sIdx := u.sIdx + 1, pc := .bucket } }

def endUpdate (p : TimerPool γ) (u : Updating) : TimerPool γ :=
  { p with bigBucket := u.bigBucket, smallBucket := u.smallBucket, updating := none }

/-- The map without the nodes that are due, and those nodes. -/
def takeDue (now : Int) (l : TimeNodeMap) : TimeNodeMap × List Nat :=
  (l.filter fun e => !decide (e.1 ≤ now), (l.filter fun e => decide (e.1 ≤ now)).map Prod.snd)

/-- `Update` from where it stands to the next such place. -/
def updateNext (p : TimerPool γ) (u : Updating) : Except Fault (TimerPool γ × Shown γ) :=
  match u.pc with
  | .bucket =>
    if u.eIdx < u.sIdx then .ok (p.endUpdate u, .done)
    else do
      let pp ← p.slot (u.sIdx.tdiv 10) (u.sIdx.tmod 10)
      match pp with
      | none => .ok (p.nextBucket u, .nothing)
      | some pmap => do
        let l ← p.readMap pmap
        .ok (((p.setMap pmap (takeDue u.now l).1).goto u (.nodelist pmap (takeDue u.now l).2)), .nothing)
  | .nodelist pmap [] => do
    let l ← p.readMap pmap
    .ok ((if l.isEmpty then p.deleteMap pmap u.sIdx else p).nextBucket u, .nothing)
  | .nodelist pmap (node :: nodes) => do
    let nd ← p.readNode node
    .ok (p.goto u (.callback pmap node nodes), .callback node nd.cb)
  | .callback pmap node nodes => do
    let _ ← p.readNode node
    .ok ((p.dealloc node).goto u (.nodelist pmap nodes), .nothing)

/-! ## Calls and what they return -/

inductive Event (γ : Type) where
  /-- `AddTimer`: the node it makes and the id it returns -/
  | addTimer (now interval : Int) (func : γ) (node id : Nat)
  | cancelTimer (id : Nat) (ret : Int)
  | update (now : Int)
  | next (shown : Shown γ)

/-- A call from outside comes between two `Update`s or from a callback. -/
def canCall (p : TimerPool γ) : Bool :=
  match p.updating with
  | none => true
  | some u => match u.pc with
    | .callback _ _ _ => true
    | _ => false

inductive Step : TimerPool γ → Event γ → TimerPool γ → Prop
  | addTimer {p p' : TimerPool γ} {now interval : Int} {func : γ} {id : Nat} : p.canCall →
      p.addTimer now interval func = .ok (p', id) → Step p (.addTimer now interval func p.nodeTop id) p'
  | cancelTimer {p p' : TimerPool γ} {id : Nat} {ret : Int} : p.canCall →
      p.cancelTimer id = .ok (p', ret) → Step p (.cancelTimer id ret) p'
  | update {p : TimerPool γ} {now : Int} : p.updating = none → Step p (.update now) (p.beginUpdate now)
  | next {p p' : TimerPool γ} {u : Updating} {shown : Shown γ} : p.updating = some u →
      p.updateNext u = .ok (p', shown) → Step p (.next shown) p'

/-- The state of a call that returned `x`. -/
def returned {α : Type} [DecidableEq α] (x : α) : Except Fault (TimerPool γ × α) → Option (TimerPool γ)
  | .ok r => if r.2 = x then some r.1 else none
  | .error _ => none

theorem returned_eq_some {α : Type} [DecidableEq α] {x : α} {r : Except Fault (TimerPool γ × α)} {p : TimerPool γ}
    (h : returned x r = some p) : r = .ok (p, x) := by
  cases r with
  | error f => cases h
  | ok r =>
    unfold returned at h
    simp only at h
    split at h
    · rename_i hx
      cases h
      rw [← hx]
    · cases h

/-- The state after an event, if it can happen. -/
def Event.replay [DecidableEq γ] (p : TimerPool γ) : Event γ → Option (TimerPool γ)
  | .addTimer now interval func node id =>
    if p.canCall ∧ node = p.nodeTop then returned id (p.addTimer now interval func) else none
  | .cancelTimer id ret => if p.canCall then returned ret (p.cancelTimer id) else none
  | .update now => if p.updating.isNone then some (p.beginUpdate now) else none
  | .next shown => p.updating.bind fun u => returned shown (p.updateNext u)

theorem replay_step [DecidableEq γ] {p p' : TimerPool γ} {e : Event γ} (h : e.replay p = some p') : Step p e p' := by
  cases e with
  | addTimer now interval func node id =>
    simp only [Event.replay, Option.ite_none_right_eq_some] at h
    obtain ⟨⟨hc, rfl⟩, h⟩ := h
    exact .addTimer hc (returned_eq_some h)
  | cancelTimer id ret =>
    simp only [Event.replay, Option.ite_none_right_eq_some] at h
    exact .cancelTimer h.1 (returned_eq_some h.2)
  | update now =>
    simp only [Event.replay, Option.ite_none_right_eq_some] at h
    obtain ⟨hu, h⟩ := h
    cases h
    exact .update (Option.isNone_iff_eq_none.mp hu)
  | next shown =>
    obtain ⟨u, hu, h⟩ := Option.bind_eq_some_iff.mp h
    exact .next hu (returned_eq_some h)

/-- The state after a list of events. -/
def replay [DecidableEq γ] (p : TimerPool γ) : List (Event γ) → Option (TimerPool γ)
  | [] => some p
  | e :: t => (e.replay p).bind fun p' => replay p' t

end TimerPool

end GlobalServer
