import GlobalServer.Lib.Bytes
import GlobalServer.Lib.Decimal
import GlobalServer.Lib.Results

/-!
# The reply parser of hiredis: `redisReader`

The bytes of a reply are fed as they come. `rstack` holds a task for the item
that is being read and one for each array around it, and `processItem` either
reads the whole of the item or leaves it for the next time.

`long long` wraps where the language leaves it undefined.
-/

namespace GlobalServer.RedisReader

open Bytes

/-- `REDIS_REPLY_*`, as far as a task has them. -/
inductive Kind where
  | string
  | array
  | integer
  | status
  | error
  deriving DecidableEq

/-- What `createStringObject` and its siblings make. `elements` is what an array says that it has. -/
inductive Obj where
  | string (type : Kind) (str : List UInt8)
  | integer (integer : Int)
  | nil
  | array (elements : Nat) (element : List Obj)

structure Task where
  type : Option Kind
  elements : Int
  idx : Int
  /-- the elements of `obj` that are complete -/
  done : List Obj

def Task.fresh (idx : Int) : Task := { type := none, elements := -1, idx, done := [] }

inductive Err where
  | protocol
  deriving DecidableEq

structure Reader where
  err : Option Err
  errstr : List UInt8
  buf : List UInt8
  pos : Nat
  /-- `rstack[ridx]` first -/
  rstack : List Task
  reply : Option Obj

namespace Reader

def create : Reader := { err := none, errstr := [], buf := [], pos := 0, rstack := [], reply := none }

/-- The bytes from the cursor on. -/
def rest (r : Reader) : List UInt8 := r.buf.drop r.pos

/-- `__redisReaderSetError` -/
def setError (r : Reader) (type : Err) (str : List UInt8) : Reader :=
  { r with err := some type, errstr := str.take 127, buf := [], pos := 0, rstack := [], reply := none }

end Reader

def hexDigit (n : Nat) : UInt8 := UInt8.ofNat (if n < 10 then 48 + n else 87 + n)

def chrtos (byte : UInt8) : List UInt8 :=
  let escaped : List UInt8 :=
    if byte = 92 ∨ byte = 34 then [92, byte]
    else if byte = 10 then [92, 110]
    else if byte = 13 then [92, 114]
    else if byte = 9 then [92, 116]
    else if byte = 7 then [92, 97]
    else if byte = 8 then [92, 98]
    else if 32 ≤ byte ∧ byte ≤ 126 then [byte]
    else [92, 120, hexDigit (byte.toNat / 16), hexDigit (byte.toNat % 16)]
  34 :: (escaped ++ [34])

/-- `__redisReaderSetErrorProtocolByte` -/
def Reader.setErrorProtocolByte (r : Reader) (byte : UInt8) : Reader :=
  r.setError .protocol
    ("Protocol error, got ".toUTF8.toList ++ chrtos byte ++ " as reply type byte".toUTF8.toList)

/-! ## Lines -/

/-- The loops of `seekNewline`, with `_len - pos` and the bytes from `pos` on. -/
def seekLoop : Nat → List UInt8 → Option Nat
  | n + 1, a :: b :: s =>
    if a = 13 then if b = 10 then some 0 else (seekLoop n (b :: s)).map (· + 1)
    -- the inner loop ends at `_len`, and the byte behind it is looked at too
    else if n = 0 then if b = 13 ∧ s.head? = some 10 then some 1 else none
    else (seekLoop n (b :: s)).map (· + 1)
  | _, _ => none

/-- How far it is to the first line end; `_len` is an `int`. -/
def seekNewline (s : List UInt8) : Option Nat := seekLoop (i32 ((s.length : Int) - 1)).toNat s

def i64 (n : Int) : Int := (n + 2 ^ 63) % 2 ^ 64 - 2 ^ 63

/-- The loop of `readLongLong`, which runs to the next carriage return: `none` at what is no digit. -/
def readDigits (v : Int) : List UInt8 → Except Fault (Option Int)
  | [] => .error .outOfBounds
  | c :: s =>
    if c = 13 then .ok (some v)
    else if Decimal.isDigit c then readDigits (i64 (i64 (v * 10) + (c.toNat - 48))) s
    else .ok none

def readLongLong (s : List UInt8) : Except Fault Int :=
  match s with
  | [] => .error .outOfBounds
  | c :: s' =>
    let (mult, s) := if c = 45 then ((-1 : Int), s') else if c = 43 then (1, s') else (1, s)
    (readDigits 0 s).map fun v => match v with
      | some v => i64 (mult * v)
      | none => -1

/-- `readLine`: where the line is and how long it is. -/
def Reader.readLine (r : Reader) : Option (List UInt8 × Nat × Reader) :=
  (seekNewline r.rest).map fun len => (r.rest, len, { r with pos := r.pos + len + 2 })

/-! ## Items -/

/-- `parent->element` has the slot `idx` of the current task. -/
def storable : List Task → Bool
  | cur :: prv :: _ => 0 ≤ cur.idx ∧ cur.idx < prv.elements
  | _ => true

/-- What `create…Object` and `moveToNextTask` do to the stack with an object that is complete: it is stored in the
array around it, or it is the reply. A nested array is stored once it is complete, since nothing reads it before. -/
def moveToNextTask (x : Obj) : List Task → Except Fault (List Task × Option Obj)
  | [] => .ok ([], none)
  | [_] => .ok ([], some x)
  | cur :: prv :: rstack =>
    if storable (cur :: prv :: rstack) then
      if cur.idx = prv.elements - 1 then
        moveToNextTask (.array prv.elements.toNat (prv.done ++ [x])) (prv :: rstack)
      else .ok (Task.fresh (cur.idx + 1) :: { prv with done := prv.done ++ [x] } :: rstack, none)
    else .error .outOfBounds

namespace Reader

/-- An item is complete. -/
def complete (r : Reader) (x : Obj) : Except Fault (Reader × Bool) := do
  let (rstack, root) ← moveToNextTask x r.rstack
  .ok ({ r with rstack, reply := root.or r.reply }, true)

def processLineItem (r : Reader) (type : Kind) : Except Fault (Reader × Bool) :=
  match r.readLine with
  | none => .ok (r, false)
  | some (p, len, r) =>
    if type = .integer then do
      let v ← readLongLong p
      r.complete (.integer v)
    else r.complete (.string type (p.take len))

def processBulkItem (r : Reader) : Except Fault (Reader × Bool) :=
  match seekNewline r.rest with
  | none => .ok (r, false)
  | some s => do
    let len ← readLongLong r.rest
    if len < 0 then ({ r with pos := r.pos + (s + 2) } : Reader).complete .nil
    else
      let bytelen := s + 2 + (len.toNat + 2)
      if r.pos + bytelen ≤ r.buf.length then
        ({ r with pos := r.pos + bytelen } : Reader).complete (.string .string ((r.rest.drop (s + 2)).take len.toNat))
      else .ok (r, false)

def depthError : List UInt8 := "No support for nested multi bulk replies with depth > 7".toUTF8.toList

def processMultiBulkItem (r : Reader) : Except Fault (Reader × Bool) :=
  if r.rstack.length = 9 then .ok (r.setError .protocol depthError, false)
  else
    match r.readLine with
    | none => .ok (r, false)
    | some (p, _, r) => do
      let elements ← readLongLong p
      if elements = -1 then r.complete .nil
      else if 0 < elements then
        match r.rstack with
        | [] => .ok (r, true)
        | cur :: rstack =>
          -- `createArray` and the task both take the count as an `int`
          if storable (cur :: rstack) then
            .ok ({ r with rstack := Task.fresh 0 :: { cur with elements := i32 elements, done := [] } :: rstack }, true)
          else .error .outOfBounds
      else r.complete (.array (i32 elements % 2 ^ 64).toNat [])

def kindOf (byte : UInt8) : Option Kind :=
  if byte = 45 then some .error
  else if byte = 43 then some .status
  else if byte = 58 then some .integer
  else if byte = 36 then some .string
  else if byte = 42 then some .array
  else none

def processTyped (r : Reader) : Kind → Except Fault (Reader × Bool)
  | .string => r.processBulkItem
  | .array => r.processMultiBulkItem
  | type => r.processLineItem type

/-- `processItem`: whether it returned `REDIS_OK`. -/
def processItem (r : Reader) : Except Fault (Reader × Bool) :=
  match r.rstack with
  | [] => .ok (r, false)
  | cur :: rstack =>
    match cur.type with
    | some type => r.processTyped type
    | none =>
      match r.rest with
      | [] => .ok (r, false)
      | byte :: _ =>
        match kindOf byte with
        | none => .ok (r.setErrorProtocolByte byte, false)
        | some type =>
          ({ r with pos := r.pos + 1, rstack := { cur with type := some type } :: rstack } : Reader).processTyped type

/-! ## The loop -/

def unread (r : Reader) : Nat := r.buf.length - r.pos

theorem seekLoop_spec : ∀ {k n : Nat} {s : List UInt8}, seekLoop k s = some n →
    ∃ more, s = s.take n ++ 13 :: 10 :: more ∧ n + 2 ≤ s.length
  | 0, _, _, h => by simp [seekLoop] at h
  | _ + 1, _, [], h => by simp [seekLoop] at h
  | _ + 1, _, [_], h => by simp [seekLoop] at h
  | k + 1, n, a :: b :: s, h => by
    have later : ∀ {m : Nat}, seekLoop k (b :: s) = some m →
        ∃ more, a :: b :: s = (a :: b :: s).take (m + 1) ++ 13 :: 10 :: more ∧ m + 1 + 2 ≤ (a :: b :: s).length := by
      intro m hm
      obtain ⟨more, hs, hl⟩ := seekLoop_spec hm
      refine ⟨more, ?_, by rw [List.length_cons]; omega⟩
      rw [List.take_succ_cons, List.cons_append, ← hs]
    rw [seekLoop] at h
    split at h
    · rename_i ha
      subst ha
      split at h
      · rename_i hb
        subst hb
        cases h
        exact ⟨s, rfl, by simp⟩
      · obtain ⟨m, hm, rfl⟩ := Option.map_eq_some_iff.mp h
        exact later hm
    · split at h
      · split at h
        · rename_i hb
          obtain ⟨rfl, hh⟩ := hb
          obtain ⟨t, rfl⟩ := List.head?_eq_some_iff.mp hh
          cases h
          exact ⟨t, rfl, by simp⟩
        · cases h
      · obtain ⟨m, hm, rfl⟩ := Option.map_eq_some_iff.mp h
        exact later hm

theorem seekNewline_spec {s : List UInt8} {n : Nat} (h : seekNewline s = some n) :
    ∃ more, s = s.take n ++ 13 :: 10 :: more ∧ n + 2 ≤ s.length := seekLoop_spec h

section
variable {r r' : Reader}

theorem readLine_spec {p : List UInt8} {len : Nat} (h : r.readLine = some (p, len, r')) :
    p = r.rest ∧ seekNewline r.rest = some len ∧ r' = { r with pos := r.pos + len + 2 } := by
  obtain ⟨n, hn, he⟩ := Option.map_eq_some_iff.mp h
  simp only [Prod.mk.injEq] at he
  obtain ⟨rfl, rfl, rfl⟩ := he
  exact ⟨rfl, hn, rfl⟩

theorem line_le {n : Nat} (h : seekNewline r.rest = some n) : r.pos + (n + 2) ≤ r.buf.length := by
  obtain ⟨-, -, hl⟩ := seekNewline_spec h
  rw [rest, List.length_drop] at hl
  omega

/-- What an item leaves of the buffer. -/
inductive Moved (r r' : Reader) : Bool → Prop
  /-- an item that has been read lies in the buffer -/
  | read : r'.buf = r.buf → r.pos < r'.pos → r'.pos ≤ r.buf.length → Moved r r' true
  | left : r'.buf = r.buf ∨ r'.buf = [] → Moved r r' false

theorem Moved.of_complete {n : Nat} {x : Obj} {ok : Bool} (hn : 0 < n) (hle : r.pos + n ≤ r.buf.length)
    (h : ({ r with pos := r.pos + n } : Reader).complete x = .ok (r', ok)) : Moved r r' ok := by
  obtain ⟨p, -, hp⟩ := Except.bind_eq_ok.mp h
  cases hp
  exact .read rfl (Nat.lt_add_of_pos_right hn) hle

theorem processTyped_moved {k : Kind} {ok : Bool} (h : r.processTyped k = .ok (r', ok)) : Moved r r' ok := by
  have line : ∀ type, r.processLineItem type = .ok (r', ok) → Moved r r' ok := by
    intro type h
    unfold processLineItem at h
    split at h
    · cases h
      exact .left (.inl rfl)
    · rename_i p len r₁ hl
      obtain ⟨-, hs, rfl⟩ := readLine_spec hl
      have hle := line_le hs
      split at h
      · obtain ⟨v, -, h⟩ := Except.bind_eq_ok.mp h
        exact .of_complete (Nat.succ_pos _) hle h
      · exact .of_complete (Nat.succ_pos _) hle h
  cases k with
  | integer => exact line _ h
  | status => exact line _ h
  | error => exact line _ h
  | string =>
    simp only [processTyped, processBulkItem] at h
    split at h
    · cases h
      exact .left (.inl rfl)
    · rename_i n hs
      have hle := line_le hs
      obtain ⟨len, -, h⟩ := Except.bind_eq_ok.mp h
      split at h
      · exact .of_complete (Nat.succ_pos _) hle h
      · split at h
        · rename_i hfit
          exact .of_complete (by omega) hfit h
        · cases h
          exact .left (.inl rfl)
  | array =>
    simp only [processTyped, processMultiBulkItem] at h
    split at h
    · cases h
      exact .left (.inr rfl)
    · split at h
      · cases h
        exact .left (.inl rfl)
      · rename_i p len r₁ hl
        obtain ⟨-, hs, rfl⟩ := readLine_spec hl
        have hle := line_le hs
        obtain ⟨elements, -, h⟩ := Except.bind_eq_ok.mp h
        split at h
        · exact .of_complete (Nat.succ_pos _) hle h
        · split at h
          · split at h
            · cases h
              exact .read rfl (by simp only; omega) hle
            · split at h
              · cases h
                exact .read rfl (by simp only; omega) hle
              · cases h
          · exact .of_complete (Nat.succ_pos _) hle h

theorem processItem_moved {ok : Bool} (h : r.processItem = .ok (r', ok)) : Moved r r' ok := by
  unfold processItem at h
  split at h
  · cases h
    exact .left (.inl rfl)
  · split at h
    · exact processTyped_moved h
    · split at h
      · cases h
        exact .left (.inl rfl)
      · split at h
        · cases h
          exact .left (.inr rfl)
        · cases processTyped_moved h with
          | read hb h1 h2 => exact .read hb (Nat.lt_of_succ_lt h1) h2
          | left hb => exact .left hb

theorem processItem_lt (h : r.processItem = .ok (r', true)) : r'.unread < r.unread := by
  cases processItem_moved h with
  | read hb h1 h2 =>
    unfold unread
    rw [hb]
    omega

end

/-- `while (r->ridx >= 0) if (processItem(r) != REDIS_OK) break;` -/
def processItems (r : Reader) : Except Fault Reader :=
  if r.rstack.isEmpty then .ok r
  else
    match _h : r.processItem with
    | .error f => .error f
    | .ok (r', true) => processItems r'
    | .ok (r', false) => .ok r'
termination_by r.unread
decreasing_by exact processItem_lt ‹_›

/-- `redisReaderFeed`. An empty buffer that has grown large is replaced by another empty one. -/
def feed (r : Reader) (bytes : List UInt8) : Reader × Bool :=
  if r.err.isSome then (r, false) else ({ r with buf := r.buf ++ bytes }, true)

/-- What is done behind the loop of `redisReaderGetReply`. -/
def emit (r : Reader) : Reader × Option Obj × Bool :=
  if r.err.isSome then (r, none, false)
  else
    let r := if 1024 ≤ r.pos then { r with buf := r.rest, pos := 0 } else r
    if r.rstack.isEmpty then ({ r with reply := none }, r.reply, true) else (r, none, true)

/-- `redisReaderGetReply`: the reply, if there is one, and whether it returned `REDIS_OK`. -/
def getReply (r : Reader) : Except Fault (Reader × Option Obj × Bool) :=
  if r.err.isSome then .ok (r, none, false)
  else if r.buf = [] then .ok (r, none, true)
  else
    (processItems (if r.rstack.isEmpty then { r with rstack := [Task.fresh (-1)] } else r)).map emit

end Reader

/-- What is done with a reader. -/
inductive Event where
  | feed (bytes : List UInt8)
  | get

/-- The replies that the calls of `redisReaderGetReply` give. -/
def Reader.replies (r : Reader) : List Event → Except Fault (Reader × List Obj)
  | [] => .ok (r, [])
  | .feed bytes :: es => (r.feed bytes).1.replies es
  | .get :: es => do
    let (r, reply, _) ← r.getReply
    let (r, l) ← r.replies es
    .ok (r, reply.toList ++ l)

/-- The buffer stays shorter than `2 ^ 31` bytes. -/
def Reader.Short (r : Reader) : List Event → Prop
  | [] => True
  | .feed bytes :: es => (r.feed bytes).1.buf.length < 2 ^ 31 ∧ (r.feed bytes).1.Short es
  | .get :: es => ∀ r' reply ok, r.getReply = .ok (r', reply, ok) → r'.Short es

/-- The bytes that are fed. -/
def fed (es : List Event) : List UInt8 := es.flatMap fun e => match e with
  | .feed bytes => bytes
  | .get => []

end GlobalServer.RedisReader
