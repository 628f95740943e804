import GlobalServer.Lib.Bytes
import GlobalServer.Lib.Ring

/-!
# The circular queue of slience/base

`circular_queue` has one slot more than it may hold elements. Slots outside
the queue are raw memory, and elements are made there by assigning and
destroyed by hand.

What the language leaves undefined has no outcome: an index outside the
array, an element that is read or destroyed where there is none, a remainder
by zero.
-/

namespace GlobalServer

open Bytes

variable {α : Type}

namespace CircularQueue

/-- What matters about `T`: `sizeof(T)`, and whether its `operator=` may be called for raw memory. -/
structure ElementType where
  size : Nat
  size_pos : 0 < size
  assignsRaw : Bool

/-- The slots of the array that `malloc` gives for `cap` elements, if it gives one. A block has never more than
`PTRDIFF_MAX` bytes. -/
def slotsFor (T : ElementType) (cap : Nat) (given : Bool) : Nat :=
  if given ∧ u64 (T.size * cap) < 2 ^ 63 then u64 (T.size * cap) / T.size else 0

/-- What a call returns, and what it has assigned to its argument. -/
inductive Ret (α : Type) where
  | void
  | returns (b : Bool)
  | returnsTrue (t : α)
  | missingReturn (t : α)
  deriving DecidableEq

end CircularQueue

structure CircularQueue (α : Type) where
  cap : Nat
  head : Nat
  tail : Nat
  slots : Nat
  element : Nat → Option α

namespace CircularQueue

def init (T : ElementType) (cap : UInt64) (given : Bool) : CircularQueue α :=
  { cap := u64 (cap.toNat + 1), head := 0, tail := 0, slots := slotsFor T (u64 (cap.toNat + 1)) given
    element := fun _ => none }

/-- `n % _cap` -/
def wrap (q : CircularQueue α) (n : Nat) : Option Nat := if q.cap = 0 then none else some (u64 n % q.cap)

def size (q : CircularQueue α) : Option Nat := q.wrap (sub64 q.cap q.head + q.tail)

def full (q : CircularQueue α) : Option Bool := q.size.map fun size => size = sub64 q.cap 1

def assign (T : ElementType) (q : CircularQueue α) (i : Nat) (t : α) : Option (CircularQueue α) :=
  if i < q.slots ∧ ((q.element i).isSome ∨ T.assignsRaw) then
    some { q with element := Function.update q.element i (some t) }
  else none

def read (q : CircularQueue α) (i : Nat) : Option α := if i < q.slots then q.element i else none

/-- `_element[i].~T()` -/
def destroy (q : CircularQueue α) (i : Nat) : Option (CircularQueue α) :=
  (q.read i).map fun _ => { q with element := Function.update q.element i none }

def push_back (T : ElementType) (q : CircularQueue α) (t : α) : Option (CircularQueue α × Ret α) := do
  if ← q.full then some (q, .returns false)
  else
    let q ← q.assign T q.tail t
    some ({ q with tail := ← q.wrap (q.tail + 1) }, .returns true)

/-- The first element is destroyed and left behind. -/
def dropFront (q : CircularQueue α) : Option (CircularQueue α) := do
  let q ← q.destroy q.head
  some { q with head := ← q.wrap (q.head + 1) }

def pop_front (q : CircularQueue α) : Option (CircularQueue α × Ret α) :=
  if q.head ≠ q.tail then q.dropFront.map (·, .void) else some (q, .void)

/-- `pop_front(T& t)` -/
def pop_frontInto (q : CircularQueue α) : Option (CircularQueue α × Ret α) :=
  if q.head ≠ q.tail then do
    let t ← q.read q.head
    some (← q.dropFront, .returnsTrue t)
  else some (q, .returns false)

def pop_back (q : CircularQueue α) : Option (CircularQueue α × Ret α) :=
  if q.head ≠ q.tail then do
    let q := { q with tail := ← q.wrap (sub64 (q.cap + q.tail) 1) }
    some (← q.destroy q.tail, .void)
  else some (q, .void)

/-- `pop_back(T& t)`, which ends without a `return` when it has removed an element. -/
def pop_backInto (q : CircularQueue α) : Option (CircularQueue α × Ret α) :=
  if q.head ≠ q.tail then do
    let q := { q with tail := ← q.wrap (sub64 (q.cap + q.tail) 1) }
    let t ← q.read q.tail
    some (← q.destroy q.tail, .missingReturn t)
  else some (q, .returns false)

/-- The loop of `clear`, for at most `n` elements. -/
def clearFrom : Nat → CircularQueue α → Option (CircularQueue α)
  | 0, q => if q.head = q.tail then some q else none
  | n + 1, q => if q.head = q.tail then some q else q.dropFront.bind (clearFrom n)

/-- From any slot `_cap` steps lead to every other one. -/
def clear (q : CircularQueue α) : Option (CircularQueue α × Ret α) := (clearFrom q.cap q).map (·, .void)

/-! ## Any number of queues -/

inductive Op (α : Type) where
  | push_back (i : Nat) (t : α)
  | pop_front (i : Nat)
  | pop_frontInto (i : Nat)
  | pop_back (i : Nat)
  | pop_backInto (i : Nat)
  | clear (i : Nat)
  | swap (i j : Nat)

abbrev Queues (α : Type) := Nat → CircularQueue α

/-- What an operation on the queue `i` leaves and returns. -/
def put {β ρ : Type} (qs : Nat → β) (i : Nat) (r : β × ρ) : (Nat → β) × ρ := (Function.update qs i r.1, r.2)

def swap {β : Type} (qs : Nat → β) (i j : Nat) : Nat → β :=
  if i = j then qs else Function.update (Function.update qs i (qs j)) j (qs i)

def step (T : ElementType) (qs : Queues α) : Op α → Option (Queues α × Ret α)
  | .push_back i t => ((qs i).push_back T t).map (put qs i)
  | .pop_front i => (qs i).pop_front.map (put qs i)
  | .pop_frontInto i => (qs i).pop_frontInto.map (put qs i)
  | .pop_back i => (qs i).pop_back.map (put qs i)
  | .pop_backInto i => (qs i).pop_backInto.map (put qs i)
  | .clear i => (qs i).clear.map (put qs i)
  | .swap i j => some (swap qs i j, .void)

/-! ## Bounded lists -/

/-- A list of at most `capacity` elements. -/
structure BoundedList (α : Type) where
  capacity : Nat
  items : List α
  length_le : items.length ≤ capacity

namespace BoundedList

def empty (capacity : Nat) : BoundedList α := ⟨capacity, [], Nat.zero_le _⟩

def push_back (b : BoundedList α) (t : α) : BoundedList α × Ret α :=
  if h : b.items.length < b.capacity then
    ({ b with items := b.items ++ [t], length_le := by rw [List.length_append]; exact h }, .returns true)
  else (b, .returns false)

def pop_front (b : BoundedList α) : BoundedList α :=
  { b with items := b.items.tail, length_le := by have := b.length_le; simp; omega }

def pop_back (b : BoundedList α) : BoundedList α :=
  { b with items := b.items.dropLast, length_le := by have := b.length_le; simp; omega }

/-- What is returned by a pop that gives the element `t`, if there is one. -/
def given (t : Option α) : Ret α := t.elim (.returns false) .returnsTrue

def apply (bs : Nat → BoundedList α) : Op α → (Nat → BoundedList α) × Ret α
  | .push_back i t => put bs i ((bs i).push_back t)
  | .pop_front i => put bs i ((bs i).pop_front, .void)
  | .pop_frontInto i => put bs i ((bs i).pop_front, given (bs i).items.head?)
  | .pop_back i => put bs i ((bs i).pop_back, .void)
  | .pop_backInto i => put bs i ((bs i).pop_back, given (bs i).items.getLast?)
  | .clear i => put bs i (empty (bs i).capacity, .void)
  | .swap i j => (swap bs i j, .void)

end BoundedList

end CircularQueue

end GlobalServer
