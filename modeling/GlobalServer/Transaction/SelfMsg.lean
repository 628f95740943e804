import GlobalServer.Base.NewOncePool
import GlobalServer.Lib.Runs
import GlobalServer.Netio.FrameBytes

/-!
# Messages of an application to itself

`SendMsgToSelf` writes the body and then the frame of a message into a pooled
object, and puts that into a queue. `Run` dispatches what is in the queue. What
a handler reads of a message is the frame and as many bytes behind it as the
frame says.
-/

namespace GlobalServer.SelfMsg

open Bytes

/-- `SelfMsg::len` -/
def len : Nat := 4 * 1024

/-- The bytes for the body. -/
def space : Nat := len - AppHeadFrame.size

def maxAllocNum : Nat := 100

/-- A call of `SendMsgToSelf`: `msg` is the message as it is serialised. -/
structure Call where
  cmd : UInt32
  uid : UInt64
  msg : List UInt8
  deriving DecidableEq

/-- `ServerType()` and `InstanceId()` -/
structure Server where
  serverType : UInt32
  instanceId : UInt32
  deriving DecidableEq

/-- `SerializePartialToArray` at `off`: a message that is longer than `size` is not written. -/
def serializePartialToArray (obj : List UInt8) (off size : Nat) (msg : List UInt8) : List UInt8 × Bool :=
  if msg.length ≤ size then (write obj off msg, true) else (obj, false)

/-- What `SendMsgToSelf` sets in the frame that it finds. -/
def setFrame (server : Server) (call : Call) (frame : AppHeadFrame) : AppHeadFrame :=
  { frame with
    isBroadcast := 0
    srcSvrType := server.serverType
    dstSvrType := server.serverType
    srcInstId := server.instanceId
    srcTransId := 0
    dstTransId := 0
    cmd := call.cmd
    cmdLength := UInt32.ofNat call.msg.length
    userid := call.uid }

/-- The object of a call. -/
def fill (server : Server) (call : Call) (obj : List UInt8) : List UInt8 :=
  let obj := (serializePartialToArray obj AppHeadFrame.size space call.msg).1
  write obj 0 (setFrame server call (AppHeadFrame.ofBytes obj)).toBytes

/-- `SelfMsg()`, which is all zeros -/
def new : List UInt8 := List.replicate len 0

/-- What is dispatched: the frame and what is read of the body. -/
structure Dispatched where
  frame : AppHeadFrame
  body : Except Fault (List UInt8)

/-- The application, with the calls that there have been and what has been dispatched. -/
structure State where
  pool : NewOncePool (List UInt8)
  selfMsgQueue : List Nat
  /-- the object whose message is being dispatched -/
  current : Option Nat
  sent : List Call
  dispatched : List Dispatched

inductive Event where
  | sendMsgToSelf (call : Call)
  /-- a message is taken from the queue -/
  | dispatch
  /-- its dispatch is over -/
  | dealloc
  deriving DecidableEq

namespace State

def init : State where
  pool := { numalloc := 0, listhead := [], object := fun _ => new, mallocs := 0 }
  selfMsgQueue := []
  current := none
  sent := []
  dispatched := []

/-- `SendMsgToSelf`, which always returns 0. -/
def sendMsgToSelf (s : State) (server : Server) (call : Call) : State :=
  let p := (s.pool.alloc new).1
  let pool := (s.pool.alloc new).2
  { s with
    pool := pool.set p (fill server call (pool.object p))
    selfMsgQueue := s.selfMsgQueue ++ [p]
    sent := s.sent ++ [call] }

/-- What a handler reads of an object. -/
def seen (obj : List UInt8) : Dispatched :=
  let frame := AppHeadFrame.ofBytes obj
  { frame, body := read obj AppHeadFrame.size frame.cmdLength.toNat }

def step (server : Server) (s : State) : Event → Option State
  | .sendMsgToSelf call => some (s.sendMsgToSelf server call)
  | .dispatch => match s.current, s.selfMsgQueue with
    | none, p :: rest =>
      some { s with
        selfMsgQueue := rest, current := some p
        dispatched := s.dispatched ++ [seen (s.pool.object p)] }
    | _, _ => none
  | .dealloc => s.current.map fun p => { s with current := none, pool := s.pool.dealloc maxAllocNum p }

def Run (server : Server) : List Event → State → Prop :=
  Runs.Run (fun s e s' => s.step server e = some s') (fun _ _ _ => True) init

/-- The objects in use, the one of the message in dispatch first. -/
def used (s : State) : List Nat := s.current.toList ++ s.selfMsgQueue

end State

/-- The header of a call; what is not set in it is 0. -/
def header (server : Server) (call : Call) : AppHeadFrame := setFrame server call {}

/-- What is dispatched is the header of the call and its message, and that has room in an object. -/
structure Right (server : Server) (call : Call) (d : Dispatched) : Prop where
  frame : d.frame = header server call
  room : d.frame.cmdLength.toNat ≤ space
  body : d.body = .ok call.msg

/-! ## Objects -/

/-- What `SendMsgToSelf` does not set is 0. -/
structure Clean (obj : List UInt8) : Prop where
  length : obj.length = len
  frame : ∀ server call, setFrame server call (AppHeadFrame.ofBytes obj) = header server call

/-- The object has been filled for a call. -/
structure Holds (server : Server) (call : Call) (obj : List UInt8) : Prop where
  length : obj.length = len
  frame : AppHeadFrame.ofBytes obj = header server call
  body : call.msg.length ≤ space → (obj.drop AppHeadFrame.size).take call.msg.length = call.msg

section
variable {server : Server} {call : Call} {obj obj' : List UInt8}

theorem ofBytes_congr (h : AppHeadFrame.size ≤ obj.length) (h' : AppHeadFrame.size ≤ obj'.length)
    (ht : obj.take AppHeadFrame.size = obj'.take AppHeadFrame.size) :
    AppHeadFrame.ofBytes obj = AppHeadFrame.ofBytes obj' := by
  rw [← AppHeadFrame.ofBytes_toBytes (AppHeadFrame.ofBytes obj) [], ← AppHeadFrame.ofBytes_toBytes (AppHeadFrame.ofBytes obj') [],
    AppHeadFrame.toBytes_ofBytes h, AppHeadFrame.toBytes_ofBytes h', ht]

theorem clean_new : Clean new := by
  refine ⟨List.length_replicate, fun server call => ?_⟩
  have hz : (({} : AppHeadFrame)).toBytes = List.replicate AppHeadFrame.size 0 := by decide
  have hnew : new = (({} : AppHeadFrame)).toBytes ++ List.replicate space 0 := by
    rw [hz, List.replicate_append_replicate]
    rfl
  rw [hnew, AppHeadFrame.ofBytes_toBytes]
  rfl

theorem Holds.clean (h : Holds server call obj) : Clean obj :=
  ⟨h.length, fun _ _ => by rw [h.frame]; rfl⟩

theorem serialize_spec (h : obj.length = len) (msg : List UInt8) :
    (serializePartialToArray obj AppHeadFrame.size space msg).1.length = len ∧
      (serializePartialToArray obj AppHeadFrame.size space msg).1.take AppHeadFrame.size = obj.take AppHeadFrame.size ∧
      (msg.length ≤ space →
        ((serializePartialToArray obj AppHeadFrame.size space msg).1.drop AppHeadFrame.size).take msg.length = msg) := by
  unfold serializePartialToArray
  split
  · rename_i hl
    have hsize : (obj.take AppHeadFrame.size).length = AppHeadFrame.size := by
      rw [List.length_take, h]
      decide
    refine ⟨?_, List.take_left' hsize, fun _ => ?_⟩
    · unfold write
      rw [List.length_append, hsize, List.length_append, List.length_drop, h]
      unfold space AppHeadFrame.size len at *
      omega
    · unfold write
      rw [List.drop_left' hsize, List.take_left' rfl]
  · rename_i hl
    exact ⟨h, rfl, fun hl' => absurd hl' hl⟩

theorem holds_fill (h : Clean obj) : Holds server call (fill server call obj) := by
  obtain ⟨hlen, htake, hbody⟩ := serialize_spec h.length call.msg
  have hsize : AppHeadFrame.size ≤ len := by decide
  have hframe := ofBytes_congr (by rw [hlen]; exact hsize) (by rw [h.length]; exact hsize) htake
  unfold fill
  simp only
  rw [hframe, h.frame]
  have hw : ∀ l : List UInt8, write l 0 (header server call).toBytes = (header server call).toBytes ++ l.drop AppHeadFrame.size := by
    intro l
    simp [write]
  rw [hw]
  refine ⟨?_, AppHeadFrame.ofBytes_toBytes _ _, fun hl => ?_⟩
  · rw [List.length_append, AppHeadFrame.length_toBytes, List.length_drop, hlen]
    decide
  · rw [List.drop_left' (AppHeadFrame.length_toBytes _)]
    exact hbody hl

theorem seen_body : (State.seen obj).body = read obj AppHeadFrame.size (AppHeadFrame.ofBytes obj).cmdLength.toNat := by
  rw [State.seen]

theorem Holds.right_iff (h : Holds server call obj) : Right server call (State.seen obj) ↔ call.msg.length ≤ space := by
  have hcmd : (AppHeadFrame.ofBytes obj).cmdLength = UInt32.ofNat call.msg.length := by
    rw [h.frame]
    rfl
  constructor
  · intro hr
    have hb := hr.body
    rw [seen_body] at hb
    rw [(read_eq_ok hb).2.2]
    exact hr.room
  · intro hl
    have hn : (UInt32.ofNat call.msg.length).toNat = call.msg.length := by
      unfold space len AppHeadFrame.size at hl
      rw [UInt32.toNat_ofNat', Nat.mod_eq_of_lt (by omega)]
    have hroom : (AppHeadFrame.ofBytes obj).cmdLength.toNat ≤ space := by rwa [hcmd, hn]
    have hbody : (State.seen obj).body = .ok call.msg := by
      rw [seen_body, hcmd, hn, read_of_le, h.body hl]
      rw [h.length]
      unfold space at hl
      have : AppHeadFrame.size ≤ len := by decide
      omega
    exact ⟨h.frame, hroom, hbody⟩

end

/-! ## Runs -/

namespace State

theorem getElem?_concat {α : Type} {l : List α} {x y : α} {i : Nat} (h : (l ++ [x])[i]? = some y) :
    l[i]? = some y ∨ i = l.length ∧ y = x := by
  rcases Nat.lt_or_ge i l.length with hi | hi
  · rw [List.getElem?_append_left hi] at h
    exact .inl h
  · rw [List.getElem?_append_right hi] at h
    obtain ⟨h0, rfl⟩ := List.getElem?_eq_some_iff.mp h
    rw [List.length_singleton] at h0
    exact .inr ⟨by omega, by simp⟩

/-- The objects in the queue have been filled for the last calls, and what has been dispatched is what was in those of
the calls before. -/
structure Sound (server : Server) (s : State) : Prop where
  pool : s.pool.Sound Clean s.used
  count : s.dispatched.length + s.selfMsgQueue.length = s.sent.length
  queued : ∀ (i p : Nat) (call : Call), s.selfMsgQueue[i]? = some p → s.sent[s.dispatched.length + i]? = some call →
    Holds server call (s.pool.object p)
  past : ∀ (i : Nat) (d : Dispatched) (call : Call), s.dispatched[i]? = some d → s.sent[i]? = some call →
    ∃ obj, Holds server call obj ∧ d = seen obj

variable {server : Server} {s s' : State}

theorem sound_init : init.Sound server :=
  ⟨⟨List.nodup_nil, nofun, nofun⟩, rfl, nofun, nofun⟩

theorem Sound.sendMsgToSelf (h : s.Sound server) (call : Call) : (s.sendMsgToSelf server call).Sound server := by
  obtain ⟨hpool, hp, hsame⟩ := h.pool.alloc clean_new
  have hclean := hpool.object _ (List.mem_append_left _ (List.mem_append_right _ (List.mem_singleton_self _)))
  have hholds : Holds server call (fill server call ((s.pool.alloc new).2.object (s.pool.alloc new).1)) := holds_fill hclean
  have hq : ∀ q ∈ s.selfMsgQueue, q ∈ s.used := fun q hq => List.mem_append_right _ hq
  refine ⟨?_, ?_, fun i p call' hi hc => ?_, fun i d call' hi hc => ?_⟩
  · unfold used State.sendMsgToSelf
    simp only
    rw [← List.append_assoc]
    exact hpool.set _ hholds.clean
  · unfold State.sendMsgToSelf
    simp only [List.length_append, List.length_singleton]
    rw [← h.count, Nat.add_assoc]
  · rcases getElem?_concat hi with hi | ⟨rfl, rfl⟩
    · have hm := hq p (List.mem_of_getElem? hi)
      have hne : p ≠ (s.pool.alloc new).1 := fun he => hp (he ▸ hm)
      have hobj : (s.sendMsgToSelf server call).pool.object p = s.pool.object p :=
        (NewOncePool.set_object_of_ne hne).trans (hsame p hm)
      rw [hobj]
      rcases getElem?_concat hc with hc | ⟨hlen, -⟩
      · exact h.queued i p call' hi hc
      · have hlt := (List.getElem?_eq_some_iff.mp hi).1
        have := h.count
        replace hlen : s.dispatched.length + i = s.sent.length := hlen
        omega
    · rcases getElem?_concat hc with hc | ⟨-, rfl⟩
      · have hlt := (List.getElem?_eq_some_iff.mp hc).1
        have := h.count
        replace hlt : s.dispatched.length + s.selfMsgQueue.length < s.sent.length := hlt
        omega
      · have hobj : ((s.pool.alloc new).2.set (s.pool.alloc new).1
            (fill server call' ((s.pool.alloc new).2.object (s.pool.alloc new).1))).object (s.pool.alloc new).1 = _ :=
          NewOncePool.set_object_self
        exact hobj ▸ hholds
  · rcases getElem?_concat hc with hc | ⟨rfl, -⟩
    · exact h.past i d call' hi hc
    · have hlt := (List.getElem?_eq_some_iff.mp hi).1
      have := h.count
      replace hlt : s.sent.length < s.dispatched.length := hlt
      omega

theorem Sound.dispatch (h : s.Sound server) (hd : s.step server .dispatch = some s') : s'.Sound server := by
  unfold step at hd
  cases hc : s.current with
  | some p => simp [hc] at hd
  | none =>
    cases hq : s.selfMsgQueue with
    | nil => simp [hc, hq] at hd
    | cons p rest =>
      rw [hc, hq] at hd
      cases hd
      have hcount := h.count
      rw [hq, List.length_cons] at hcount
      refine ⟨?_, ?_, fun i p' call hi hcall => ?_, fun i d call hi hcall => ?_⟩
      · have hu : s.used = p :: rest := by
          unfold used
          rw [hc, hq]
          rfl
        have := h.pool
        rwa [hu] at this
      · simp only [List.length_append, List.length_singleton]
        omega
      · refine h.queued (i + 1) p' call (by rw [hq]; exact hi) ?_
        simp only [List.length_append, List.length_singleton] at hcall
        rwa [Nat.add_assoc, Nat.add_comm 1] at hcall
      · rcases getElem?_concat hi with hi | ⟨rfl, rfl⟩
        · exact h.past i d call hi hcall
        · exact ⟨_, h.queued 0 p call (by rw [hq]; rfl) hcall, rfl⟩

theorem Sound.dealloc (h : s.Sound server) (hd : s.step server .dealloc = some s') : s'.Sound server := by
  obtain ⟨p, hc, rfl⟩ := Option.map_eq_some_iff.mp hd
  have hpool := h.pool
  unfold used at hpool
  rw [hc] at hpool
  refine ⟨hpool.dealloc maxAllocNum, h.count, fun i p' call hi hcall => ?_, h.past⟩
  simp only [NewOncePool.dealloc_object]
  exact h.queued i p' call hi hcall

theorem sound_run {t : List Event} (h : Run server t s) : s.Sound server := by
  refine h.invariant (fun _ s => s.Sound server) sound_init ?_
  rintro t s e s' - hs - hst
  cases e with
  | sendMsgToSelf call =>
    cases hst
    exact hs.sendMsgToSelf call
  | dispatch => exact hs.dispatch hst
  | dealloc => exact hs.dealloc hst

/-- What is dispatched for a call is right exactly if the message of the call has room in an object. -/
theorem dispatched_right_iff {t : List Event} (h : Run server t s) {i : Nat} {d : Dispatched} {call : Call}
    (hd : s.dispatched[i]? = some d) (hc : s.sent[i]? = some call) : Right server call d ↔ call.msg.length ≤ space := by
  obtain ⟨obj, hobj, rfl⟩ := (sound_run h).past i d call hd hc
  exact hobj.right_iff

/-- The first call has been dispatched. -/
def one (server : Server) (call : Call) : State :=
  { init.sendMsgToSelf server call with
    selfMsgQueue := [], current := some 0, dispatched := [seen (fill server call new)] }

theorem run_one (server : Server) (call : Call) : Run server [.sendMsgToSelf call, .dispatch] (one server call) :=
  (Runs.Run.nil.snoc trivial rfl).snoc trivial rfl

theorem short_right : Right ⟨5, 1⟩ ⟨7, 1, [8, 9]⟩ (seen (fill ⟨5, 1⟩ ⟨7, 1, [8, 9]⟩ new)) :=
  (dispatched_right_iff (i := 0) (run_one ⟨5, 1⟩ ⟨7, 1, [8, 9]⟩) rfl rfl).mpr (by decide)

/-- A message that does not fit is not written; what is dispatched claims to have it. -/
theorem long_not_right : ¬ Right ⟨5, 1⟩ ⟨7, 1, List.replicate 4047 8⟩ (seen (fill ⟨5, 1⟩ ⟨7, 1, List.replicate 4047 8⟩ new)) := by
  rw [(holds_fill clean_new).right_iff, List.length_replicate]
  decide

end State

end GlobalServer.SelfMsg
