import GlobalServer.Lib.KeyTable
import GlobalServer.Lib.Runs
import GlobalServer.Netio.NetIoHandler

/-!
# The table of accepted connections

The threads that do the input and output accept connections, close descriptors
and leave a message for the main thread when a connection has come or gone.
The main thread keeps the connections in a table by descriptor. A descriptor is
closed before the message about it is left, and the system gives its number
out again at once.

The connections are numbered as they are accepted.
-/

namespace GlobalServer.SocketContainer

inductive MsgType where
  | socketIn
  | socketData
  | socketOut
  deriving DecidableEq

structure TcpSocketMsg where
  type : MsgType
  ptr : Nat
  deriving DecidableEq

def M_MAX_MESSAGE_LIST : Nat := 5000

structure State where
  accepted : Nat
  /-- the connections whose descriptor is open -/
  opened : List Nat
  tcpSocketMsgList : List TcpSocketMsg
  tmpList : List TcpSocketMsg
  tcpSocketContainer : Int → Option Nat
  /-- the messages that have been processed -/
  processed : List TcpSocketMsg
  /-- of whom a message was that removed an entry, and whose entry it was -/
  removed : List (Nat × Nat)

/-- What a thread does: all but the last two are input and output. -/
inductive Event where
  | accept
  /-- `TcpSocket::Init`, if it gets that far -/
  | onConnected (c : Nat)
  | onReceiveData (c : Nat)
  /-- `g_closesocket` -/
  | closesocket (c : Nat)
  /-- the handler of `_DoClose` -/
  | onDisconnected (c : Nat)
  | swap
  | process
  deriving DecidableEq

namespace State

def init : State :=
  { accepted := 0, opened := [], tcpSocketMsgList := [], tmpList := [], tcpSocketContainer := fun _ => none
    processed := [], removed := [] }

/-- All that was ever put into the list. -/
def pushed (s : State) : List TcpSocketMsg := s.processed ++ s.tmpList ++ s.tcpSocketMsgList

def push (s : State) (type : MsgType) (c : Nat) : State :=
  { s with tcpSocketMsgList := s.tcpSocketMsgList ++ [{ type, ptr := c }] }

section
variable (fd : Nat → Nat)

def key (c : Nat) : Int := M_TCP_FD_FLAG + fd c

/-- `OnConnection`; a connection that is not inserted is closed some time later. -/
def onConnection (s : State) (c : Nat) : State :=
  { s with tcpSocketContainer := KeyTable.insert (key fd) s.tcpSocketContainer c }

def onDisConnection (s : State) (c : Nat) : State :=
  match s.tcpSocketContainer (key fd c) with
  | none => s
  | some c' =>
    { s with
      tcpSocketContainer := KeyTable.erase s.tcpSocketContainer (key fd c)
      removed := s.removed ++ [(c, c')] }

def consum (s : State) (msg : TcpSocketMsg) : State :=
  match msg.type with
  | .socketIn => s.onConnection fd msg.ptr
  -- only the count and the time of the entry are changed
  | .socketData => s
  | .socketOut => s.onDisConnection fd msg.ptr

/-- The steps, when `fd` gives the numbers that the system hands out. -/
def step (s : State) : Event → Option State
  | .accept =>
    if ∀ c ∈ s.opened, fd c ≠ fd s.accepted then
      some { s with accepted := s.accepted + 1, opened := s.accepted :: s.opened }
    else none
  | .onConnected c => if c ∈ s.opened ∧ ⟨.socketIn, c⟩ ∉ s.pushed then some (s.push .socketIn c) else none
  | .onReceiveData c =>
    if ⟨.socketIn, c⟩ ∈ s.pushed ∧ ⟨.socketOut, c⟩ ∉ s.pushed then
      some (if M_MAX_MESSAGE_LIST ≤ s.tcpSocketMsgList.length then s else s.push .socketData c)
    else none
  | .closesocket c => if c ∈ s.opened then some { s with opened := s.opened.erase c } else none
  | .onDisconnected c =>
    if c ∉ s.opened ∧ ⟨.socketIn, c⟩ ∈ s.pushed ∧ ⟨.socketOut, c⟩ ∉ s.pushed then some (s.push .socketOut c) else none
  | .swap => if s.tmpList = [] then some { s with tmpList := s.tcpSocketMsgList, tcpSocketMsgList := [] } else none
  | .process => match s.tmpList with
    | [] => none
    | msg :: rest => some { s.consum fd msg with tmpList := rest, processed := s.processed ++ [msg] }

/-- Every connection is in the table under its descriptor from its first message to its last, and that one removes
no other entry. -/
structure Kept (s : State) : Prop where
  entry : ∀ c, ⟨.socketIn, c⟩ ∈ s.processed → ⟨.socketOut, c⟩ ∉ s.processed → s.tcpSocketContainer (key fd c) = some c
  own : ∀ x ∈ s.removed, x.1 = x.2

/-- The message of a new connection comes after the last messages of all those before it that had its number. -/
def Meets (s : State) : Event → Prop
  | .onConnected c => ∀ msg ∈ s.pushed, msg.type = .socketIn → fd msg.ptr = fd c → ⟨.socketOut, msg.ptr⟩ ∈ s.pushed
  | _ => True

instance (s : State) (e : Event) : Decidable (s.Meets fd e) := by
  unfold Meets
  cases e <;> infer_instance

/-- The runs, and those whose steps all meet the condition. -/
abbrev Run : List Event → State → Prop := Runs.Run (fun s e s' => s.step fd e = some s') (fun _ _ _ => True) init

abbrev MeetingRun : List Event → State → Prop :=
  Runs.Run (fun s e s' => s.step fd e = some s') (fun _ s e => s.Meets fd e) init

def op (msg : TcpSocketMsg) : Option (KeyTable.Op Nat) :=
  match msg.type with
  | .socketIn => some (.enter msg.ptr)
  | .socketData => none
  | .socketOut => some (.leave msg.ptr)

def ops (msgs : List TcpSocketMsg) : List (KeyTable.Op Nat) := msgs.filterMap op

end

theorem ops_append (msgs msgs' : List TcpSocketMsg) : ops (msgs ++ msgs') = ops msgs ++ ops msgs' :=
  List.filterMap_append

theorem enter_mem_ops {msgs : List TcpSocketMsg} {c : Nat} : .enter c ∈ ops msgs ↔ ⟨.socketIn, c⟩ ∈ msgs := by
  simp only [ops, List.mem_filterMap]
  constructor
  · rintro ⟨⟨type, ptr⟩, hm, ho⟩
    cases type <;> simp [op] at ho
    exact ho ▸ hm
  · intro hm
    exact ⟨_, hm, rfl⟩

theorem leave_mem_ops {msgs : List TcpSocketMsg} {c : Nat} : .leave c ∈ ops msgs ↔ ⟨.socketOut, c⟩ ∈ msgs := by
  simp only [ops, List.mem_filterMap]
  constructor
  · rintro ⟨⟨type, ptr⟩, hm, ho⟩
    cases type <;> simp [op] at ho
    exact ho ▸ hm
  · intro hm
    exact ⟨_, hm, rfl⟩

theorem pushed_push (s : State) (type : MsgType) (c : Nat) : (s.push type c).pushed = s.pushed ++ [⟨type, c⟩] := by
  simp [pushed, push]

variable {fd : Nat → Nat}

/-- What has been put into the list is in order, and the table is what the processed part of it makes. -/
structure Sound (fd : Nat → Nat) (s : State) : Prop where
  orderly : KeyTable.Orderly (key fd) (ops s.pushed)
  table : s.tcpSocketContainer = KeyTable.after (key fd) (ops s.processed)
  own : ∀ x ∈ s.removed, x.1 = x.2

theorem Sound.kept {s : State} (h : Sound fd s) : Kept fd s := by
  refine ⟨fun c hin hout => ?_, h.own⟩
  have ho : KeyTable.Orderly (key fd) (ops s.processed) := by
    have := h.orderly
    rw [pushed, List.append_assoc, ops_append] at this
    exact this.of_append
  rw [h.table, ho.after_eq_some_iff]
  exact ⟨rfl, enter_mem_ops.mpr hin, fun hl => hout (leave_mem_ops.mp hl)⟩

theorem Sound.push {s : State} (h : Sound fd s) {type : MsgType} {c : Nat}
    (ho : KeyTable.Orderly (key fd) (ops s.pushed ++ ops [⟨type, c⟩])) : Sound fd (s.push type c) := by
  refine ⟨?_, h.table, h.own⟩
  rw [pushed_push, ops_append]
  exact ho

theorem Sound.process {s : State} {msg : TcpSocketMsg} {rest : List TcpSocketMsg} (h : Sound fd s)
    (ht : s.tmpList = msg :: rest) :
    Sound fd { s.consum fd msg with tmpList := rest, processed := s.processed ++ [msg] } := by
  have hpushed : s.pushed = (s.processed ++ [msg]) ++ (rest ++ s.tcpSocketMsgList) := by simp [pushed, ht]
  have ho := h.orderly
  rw [hpushed, ops_append] at ho
  have ho := ho.of_append
  rw [ops_append] at ho
  obtain ⟨type, c⟩ := msg
  cases type with
  | socketIn =>
    refine ⟨?_, ?_, h.own⟩
    · have := h.orderly
      rw [hpushed] at this
      simpa [pushed, consum, onConnection] using this
    · show KeyTable.insert (key fd) s.tcpSocketContainer c = _
      rw [h.table, ops_append]
      exact (KeyTable.after_append (ops s.processed) (.enter c)).symm
  | socketData =>
    refine ⟨?_, ?_, h.own⟩
    · have := h.orderly
      rw [hpushed] at this
      simpa [pushed, consum] using this
    · show s.tcpSocketContainer = _
      rw [h.table, ops_append]
      exact congrArg _ (List.append_nil _).symm
  | socketOut =>
    -- the entry that is there is the connection's own
    have hown : s.tcpSocketContainer (key fd c) = some c := by
      rw [h.table]
      exact ho.leaves_own
    have hc : s.consum fd ⟨.socketOut, c⟩ =
        { s with
          tcpSocketContainer := KeyTable.erase s.tcpSocketContainer (key fd c), removed := s.removed ++ [(c, c)] } := by
      simp only [consum, onDisConnection, hown]
    rw [hc]
    refine ⟨?_, ?_, fun x hx => ?_⟩
    · have := h.orderly
      rw [hpushed] at this
      simpa [pushed] using this
    · show KeyTable.erase s.tcpSocketContainer (key fd c) = _
      rw [h.table, ops_append]
      exact (KeyTable.after_append (ops s.processed) (.leave c)).symm
    · rcases List.mem_append.mp hx with hx | hx
      · exact h.own x hx
      · simp only [List.mem_singleton] at hx
        subst hx
        rfl

theorem Sound.step {s s' : State} {e : Event} (h : Sound fd s) (hm : s.Meets fd e) (hst : s.step fd e = some s') :
    Sound fd s' := by
  cases e with
  | accept =>
    simp only [State.step, Option.ite_none_right_eq_some, Option.some.injEq] at hst
    obtain ⟨-, rfl⟩ := hst
    exact ⟨h.orderly, h.table, h.own⟩
  | onConnected c =>
    simp only [State.step, Option.ite_none_right_eq_some, Option.some.injEq] at hst
    obtain ⟨⟨-, hno⟩, rfl⟩ := hst
    apply h.push
    refine .enter h.orderly (fun he => hno (enter_mem_ops.mp he)) fun b hb he => ?_
    have hfd : fd b = fd c := by
      simp only [key] at hb
      omega
    exact leave_mem_ops.mpr (hm _ (enter_mem_ops.mp he) rfl hfd)
  | onReceiveData c =>
    simp only [State.step, Option.ite_none_right_eq_some, Option.some.injEq] at hst
    obtain ⟨-, rfl⟩ := hst
    split
    · exact h
    · apply h.push
      have hnone : ops [⟨.socketData, c⟩] = [] := rfl
      rw [hnone, List.append_nil]
      exact h.orderly
  | closesocket c =>
    simp only [State.step, Option.ite_none_right_eq_some, Option.some.injEq] at hst
    obtain ⟨-, rfl⟩ := hst
    exact ⟨h.orderly, h.table, h.own⟩
  | onDisconnected c =>
    simp only [State.step, Option.ite_none_right_eq_some, Option.some.injEq] at hst
    obtain ⟨⟨-, hin, hout⟩, rfl⟩ := hst
    apply h.push
    exact .leave h.orderly (enter_mem_ops.mpr hin) fun hl => hout (leave_mem_ops.mp hl)
  | swap =>
    simp only [State.step, Option.ite_none_right_eq_some, Option.some.injEq] at hst
    obtain ⟨ht, rfl⟩ := hst
    refine ⟨?_, h.table, h.own⟩
    simpa [pushed, ht] using h.orderly
  | process =>
    simp only [State.step] at hst
    cases ht : s.tmpList with
    | nil => simp [ht] at hst
    | cons msg rest =>
      simp only [ht, Option.some.injEq] at hst
      exact hst ▸ h.process ht

/-- As long as no connection comes before those that had its number have gone, the table is what it is to be. -/
theorem container_kept {t : List Event} {s : State} (h : MeetingRun fd t s) : Kept fd s := by
  have hs : Sound fd s := by
    refine h.invariant (fun _ s => Sound fd s) ⟨.nil, rfl, by simp [init]⟩ ?_
    intro _ _ _ _ _ hi hm hst
    exact hi.step hm hst
  exact hs.kept

/-- A connection comes, and goes. -/
def comesAndGoes (c : Nat) : List Event :=
  [.accept, .onConnected c, .swap, .process, .closesocket c, .onDisconnected c, .swap, .process]

/-- Two connections that have the same descriptor one after the other -/
theorem container_kept_twice :
    ∃ s, MeetingRun (fun _ => 7) (comesAndGoes 0 ++ [.accept, .onConnected 1, .swap, .process]) s ∧
      Kept (fun _ => 7) s := by
  have h : (Runs.replay (fun s e => if s.Meets (fun _ => 7) e then s.step (fun _ => 7) e else none) init
      (comesAndGoes 0 ++ [.accept, .onConnected 1, .swap, .process])).isSome = true := by decide +kernel
  obtain ⟨s, hs⟩ := Option.isSome_iff_exists.mp h
  exact ⟨s, .of_replay_meets hs, container_kept (.of_replay_meets hs)⟩

/-- The second connection comes before the first has gone and is not inserted; its last message removes the entry of the
third. -/
def reuse : List Event :=
  [.accept, .onConnected 0, .closesocket 0, .accept, .onConnected 1, .onDisconnected 0, .swap, .process, .process,
    .process, .closesocket 1, .accept, .onConnected 2, .onDisconnected 1, .swap, .process, .process]

theorem reused_fd_loses_entry : ∃ s, Run (fun _ => 7) reuse s ∧
    (⟨.socketIn, 2⟩ ∈ s.processed ∧ ⟨.socketOut, 2⟩ ∉ s.processed ∧
      s.tcpSocketContainer (key (fun _ => 7) 2) ≠ some 2) ∧
    (1, 2) ∈ s.removed ∧ ¬ Kept (fun _ => 7) s := by
  have h : (Runs.replay (step fun _ => 7) init reuse).map (fun s =>
      decide (⟨.socketIn, 2⟩ ∈ s.processed ∧ ⟨.socketOut, 2⟩ ∉ s.processed ∧
        s.tcpSocketContainer (key (fun _ => 7) 2) ≠ some 2 ∧ (1, 2) ∈ s.removed)) = some true := by decide +kernel
  obtain ⟨s, hs, hd⟩ := Option.map_eq_some_iff.mp h
  obtain ⟨hin, hout, hne, hr⟩ := of_decide_eq_true hd
  refine ⟨s, .of_replay hs, ⟨hin, hout, hne⟩, hr, fun hk => ?_⟩
  have := hk.own _ hr
  cases this

end State

end GlobalServer.SocketContainer
