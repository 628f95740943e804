import GlobalServer.Lib.Bytes
import GlobalServer.Lib.Heap
import Mathlib.Algebra.Group.Int.Defs

/-!
# The singly linked list of slience/base

`slist` keeps the first and the last of its nodes and their number. To read,
write or free a node that is not there has no outcome; neither has `new` a
choice here, which puts a node at a free address that the operation names.
-/

namespace GlobalServer

open Bytes

variable {α : Type}

namespace Slist

structure Node (α : Type) where
  val : α
  next : Option Nat

end Slist

/-- `NULL` is `none`. -/
structure Slist where
  count : Int
  head : Option Nat
  tail : Option Nat
  count_lt : count < 2 ^ 31

namespace Slist

abbrev Nodes (α : Type) := Heap (Node α)

def init : Slist := { count := 0, head := none, tail := none, count_lt := by decide }

def push_back (h : Nodes α) (l : Slist) (t : α) (at' : Nat) : Option (Nodes α × Slist) :=
  let pnode := h.place at'
  let h := h.put pnode { val := t, next := none }
  let l' : Slist :=
    { count := i32 (l.count + 1)
      head := if l.head.isNone then some pnode else l.head
      tail := some pnode
      count_lt := i32_lt _ }
  match l.tail with
  | some tail => (h.modify tail fun node => { node with next := some pnode }).map (·, l')
  | none => some (h, l')

def pop_front (h : Nodes α) (l : Slist) : Option (Nodes α × Slist) :=
  match l.head with
  | some head => do
      let node ← h.cell head
      let h ← h.free head
      some (h, { l with
        count := i32 (l.count - 1), head := node.next, tail := if l.head = l.tail then node.next else l.tail
        count_lt := i32_lt _ })
  | none => some (h, l)

/-- The loop of `clear`, for at most `n` nodes. -/
def freeFrom : Nat → Nodes α → Option Nat → Option (Nodes α)
  | _, h, none => some h
  | 0, _, some _ => none
  | n + 1, h, some cur => do
      let node ← h.cell cur
      freeFrom n (← h.free cur) node.next

/-- There are never more nodes than addresses below `brk`. -/
def clear (h : Nodes α) (l : Slist) : Option (Nodes α × Slist) :=
  (freeFrom h.brk h l.head).map (·, { l with count := 0, head := none, count_lt := by decide })

/-- `join` of two different lists. -/
def join (h : Nodes α) (l other : Slist) : Option (Nodes α × Slist × Slist) :=
  let l' : Slist := { l with tail := other.tail, count := i32 (l.count + other.count), count_lt := i32_lt _ }
  let other' : Slist := { count := 0, head := none, tail := none, count_lt := by decide }
  match l.tail with
  | some tail => (h.modify tail fun node => { node with next := other.head }).map (·, l', other')
  | none => some (h, { l' with head := other.head }, other')

/-- `size` -/
def size (l : Slist) : Int := l.count

/-! ## Any number of lists -/

structure State (α : Type) where
  nodes : Nodes α
  list : Nat → Slist

inductive Op (α : Type) where
  | push_back (i : Nat) (t : α) (at' : Nat)
  | pop_front (i : Nat)
  | clear (i : Nat)
  | join (i j : Nat)
  | swap (i j : Nat)

namespace State

def start : State α := { nodes := Heap.empty, list := fun _ => init }

/-- The state in which one list has changed. -/
def put (s : State α) (i : Nat) (r : Nodes α × Slist) : State α :=
  { nodes := r.1, list := Function.update s.list i r.2 }

def step (s : State α) : Op α → Option (State α)
  | .push_back i t at' => ((s.list i).push_back s.nodes t at').map (s.put i)
  | .pop_front i => ((s.list i).pop_front s.nodes).map (s.put i)
  | .clear i => ((s.list i).clear s.nodes).map (s.put i)
  | .join i j =>
      if i = j then some s
      else ((s.list i).join s.nodes (s.list j)).map fun r =>
        { nodes := r.1, list := Function.update (Function.update s.list i r.2.1) j r.2.2 }
  | .swap i j =>
      if i = j then some s
      else some { s with list := Function.update (Function.update s.list j (s.list i)) i (s.list j) }

end State

/-! ## Mathematical lists -/

/-- What the operations are for. -/
def apply (xs : Nat → List α) : Op α → Nat → List α
  | .push_back i t _ => Function.update xs i (xs i ++ [t])
  | .pop_front i => Function.update xs i (xs i).tail
  | .clear i => Function.update xs i []
  | .join i j => if i = j then xs else Function.update (Function.update xs i (xs i ++ xs j)) j []
  | .swap i j => if i = j then xs else Function.update (Function.update xs j (xs i)) i (xs j)

def next (h : Nodes α) (a : Nat) : Option (Option Nat) := (h.cell a).map Node.next

def val (h : Nodes α) (a : Nat) : Option α := (h.cell a).map Node.val

/-- The nodes that are reached from the head hold `xs`, the tail is the last of them, and the size is their number. -/
structure Holds (h : Nodes α) (l : Slist) (nodes : List Nat) (xs : List α) : Prop where
  chain : Chain (next h) l.head nodes
  vals : nodes.map (val h) = xs.map some
  tail : l.tail = nodes.getLast?
  size : l.size = nodes.length

end Slist

end GlobalServer
