import GlobalServer.Lib.KeyTable
import GlobalServer.Lib.Runs
import GlobalServer.Netio.NetIoHandler
import GlobalServer.Router.PeersReload

/-!
# The connections of a server to its peers

A connsvr connects to the routers of its zone, a routersvr to the transfers of
its zone: when they are configured, and again when a connection cannot be made
or is gone. The threads that do the input and output leave a message for the
main thread when an attempt has come to an end and when a connection is gone.
Of a connection that has been made its transaction registers the server with
the peer, which takes some time, and then stores the descriptor.

The connections are numbered as they are begun. What is received is left out.
-/

namespace GlobalServer.PeerConns

inductive Phase where
  | connecting
  /-- the attempt has failed, of which there is a message -/
  | failed
  /-- the attempt is over, and nobody is told -/
  | lost
  | opened
  /-- the descriptor is closed -/
  | closed
  deriving DecidableEq

structure TcpConnector where
  ip : String
  port : UInt16
  listenConnType : Int
  listenConnNum : Int32
  phase : Phase
  deriving DecidableEq

def TcpConnector.peer (k : TcpConnector) : Peer := { ip := k.ip, port := k.port.toNat, instId := k.listenConnNum }

inductive TcpConnectorMsg where
  | socketIn (c : Nat) (error : Bool)
  | socketOut (c : Nat)
  deriving DecidableEq

structure State where
  mgr : PeerMgr
  /-- what the last reload has read that succeeded -/
  config : List ConfigRouterInfo
  connector : Nat → TcpConnector
  top : Nat
  tcpConnectorMsgList : List TcpConnectorMsg
  tmpList : List TcpConnectorMsg
  tcpConnectorContainer : Int → Option Nat
  /-- the connections whose `TransClientIn` is in `SendRegistCmd` -/
  registering : List Nat
  /-- the messages that have been processed -/
  processed : List TcpConnectorMsg
  /-- the peers that `ConnectOne` was called for, and whether they were configured -/
  dials : List (Peer × Bool)

/-- `refused` are the connections for which `AsyncConnect` fails at once, and `created` says whether a transaction can
be made for a message. -/
inductive Event where
  | reload (file : Option (List ConfigRouterInfo)) (refused : List Nat)
  /-- `_ConnectHandler` up to `OnConnected` -/
  | onConnected (c : Nat)
  | onConnectFailed (c : Nat)
  /-- an exception in `_ConnectHandler` before it calls `OnConnected` -/
  | connectThrows (c : Nat)
  /-- `g_closesocket` in `_DoClose` -/
  | closesocket (c : Nat)
  /-- the handler of `_DoClose` -/
  | onDisconnected (c : Nat)
  | swap
  | process (created : Bool) (refused : List Nat)
  /-- `SendRegistCmd` returns -/
  | registered (c : Nat)
  deriving DecidableEq

namespace State

/-- The peers of the zone in the configuration -/
def Configured (s : State) (p : Peer) : Prop := ∃ i ∈ s.config, i.svrZone = s.mgr.selfServerZone ∧ i.peer = p

instance (s : State) (p : Peer) : Decidable (s.Configured p) :=
  inferInstanceAs (Decidable (∃ i ∈ s.config, _))

/-- A server before its first reload -/
def init (connType : Int) (file : String) (selfServerZone : Int32) : State :=
  { mgr := .init file selfServerZone, config := []
    connector := fun _ => { ip := "", port := 0, listenConnType := connType, listenConnNum := 0, phase := .lost }
    top := 0, tcpConnectorMsgList := [], tmpList := [], tcpConnectorContainer := fun _ => none, registering := []
    processed := [], dials := [] }

def pushed (s : State) : List TcpConnectorMsg := s.processed ++ s.tmpList ++ s.tcpConnectorMsgList

def queued (s : State) : List TcpConnectorMsg := s.tmpList ++ s.tcpConnectorMsgList

def push (s : State) (msg : TcpConnectorMsg) : State := { s with tcpConnectorMsgList := s.tcpConnectorMsgList ++ [msg] }

def pop (s : State) (msg : TcpConnectorMsg) (rest : List TcpConnectorMsg) : State :=
  { s with tmpList := rest, processed := s.processed ++ [msg] }

def setPhase (s : State) (c : Nat) (phase : Phase) : State :=
  { s with connector := Function.update s.connector c { s.connector c with phase } }

/-- `NetIo::ConnectOne`, which does not look at the error of `AsyncConnect` -/
def connectOne (s : State) (ip : String) (port : UInt16) (connType : Int) (connNum : Int32)
    (refused : List Nat) : State :=
  let k : TcpConnector :=
    { ip, port, listenConnType := connType, listenConnNum := connNum
      phase := if s.top ∈ refused then .lost else .connecting }
  { s with
    connector := Function.update s.connector s.top k, top := s.top + 1
    dials := s.dials ++ [(k.peer, decide (s.Configured k.peer))] }

/-- What a reload asks for. A connection that `CloseFd` is called for is closed some time later. -/
def perform (refused : List Nat) (s : State) : NetCall → State
  | .connectOne ip port connType connNum => s.connectOne ip port connType connNum refused
  | .closeFd _ => s

section
variable (fd : Nat → Nat) (connType : Int)

/-- The key of a connection in the table, and the descriptor that is stored of it -/
def key (c : Nat) : Int := M_TCP_CONNECTOR_FD_FLAG + fd c

/-- `RouterMgr::Reload` or `TransferMgr::Reload` but for what it asks of `NetIoHandler` -/
def load (s : State) (file : Option (List ConfigRouterInfo)) : State :=
  let r := s.mgr.reload connType fun _ => file
  { s with mgr := r.1.1, config := if s.mgr.file ≠ "" ∧ r.2 = 0 then file.getD s.config else s.config }

def reload (s : State) (file : Option (List ConfigRouterInfo)) (refused : List Nat) : State :=
  (s.mgr.reload connType fun _ => file).1.2.foldl (perform refused) (s.load connType file)

/-- `TransClientIn` up to `SendRegistCmd` -/
def transClientIn (s : State) (c : Nat) : State :=
  if (s.connector c).listenConnType = connType then { s with registering := c :: s.registering } else s

/-- `OnConnection`: a connection that is not inserted is closed some time later. -/
def onConnection (s : State) (c : Nat) (error created : Bool) (refused : List Nat) : State :=
  let k := s.connector c
  if error then s.connectOne k.ip k.port k.listenConnType k.listenConnNum refused
  else match s.tcpConnectorContainer (key fd c) with
    | some _ => s
    | none =>
      let s := { s with tcpConnectorContainer := KeyTable.insert (key fd) s.tcpConnectorContainer c }
      if created then s.transClientIn connType c else s

/-- `TransClientOut` of the connection that the table has for the descriptor; the stored descriptor stays. -/
def transClientOut (s : State) (c : Nat) (refused : List Nat) : State :=
  let k := s.connector c
  if k.listenConnType = connType ∧ s.mgr.exist k.ip k.port.toUInt32 k.listenConnNum = true then
    s.connectOne k.ip k.port k.listenConnType k.listenConnNum refused
  else s

def onDisConnection (s : State) (c : Nat) (created : Bool) (refused : List Nat) : State :=
  match s.tcpConnectorContainer (key fd c) with
  | none => s
  | some c' =>
    let s := if created then s.transClientOut connType c' refused else s
    { s with tcpConnectorContainer := KeyTable.erase s.tcpConnectorContainer (key fd c) }

/-- A turn of the loop in `ConsumTcpConnectorMsg`. -/
def consum (s : State) (created : Bool) (refused : List Nat) : TcpConnectorMsg → State
  | .socketIn c error => s.onConnection fd connType c error created refused
  | .socketOut c => s.onDisConnection fd connType c created refused

/-- `LoginRouter` or `LoginTransfer` of a connection -/
def login (s : State) (c : Nat) : State :=
  let k := s.connector c
  { s with mgr := (s.mgr.login k.ip k.port.toUInt32 k.listenConnNum (key fd c)).1, registering := s.registering.erase c }

/-- The steps, when `fd` gives the numbers that the system hands out. -/
def step (s : State) : Event → Option State
  | .reload file refused => some (s.reload connType file refused)
  | .onConnected c =>
    if (s.connector c).phase = .connecting ∧ ∀ b < s.top, (s.connector b).phase = .opened → fd b ≠ fd c then
      some ((s.setPhase c .opened).push (.socketIn c false))
    else none
  | .onConnectFailed c =>
    if (s.connector c).phase = .connecting then some ((s.setPhase c .failed).push (.socketIn c true)) else none
  | .connectThrows c => if (s.connector c).phase = .connecting then some (s.setPhase c .lost) else none
  | .closesocket c => if (s.connector c).phase = .opened then some (s.setPhase c .closed) else none
  | .onDisconnected c =>
    if (s.connector c).phase = .closed ∧ .socketOut c ∉ s.pushed then some (s.push (.socketOut c)) else none
  | .swap => if s.tmpList = [] then some { s with tmpList := s.tcpConnectorMsgList, tcpConnectorMsgList := [] } else none
  | .process created refused => match s.tmpList with
    | [] => none
    | msg :: rest => some ((s.pop msg rest).consum fd connType created refused msg)
  | .registered c => if c ∈ s.registering then some (s.login fd c) else none

abbrev Run (file : String) (selfServerZone : Int32) : List Event → State → Prop :=
  Runs.Run (fun s e s' => s.step fd connType e = some s') (fun _ _ _ => True) (init connType file selfServerZone)

end

variable {fd : Nat → Nat} {connType : Int}

/-- The steps one by one, each with what it needs -/
inductive Stepped (fd : Nat → Nat) (connType : Int) (s : State) : Event → State → Prop where
  | reload (file : Option (List ConfigRouterInfo)) (refused : List Nat) :
      Stepped fd connType s (.reload file refused) (s.reload connType file refused)
  | onConnected (c : Nat) (hp : (s.connector c).phase = .connecting)
      (hfd : ∀ b < s.top, (s.connector b).phase = .opened → fd b ≠ fd c) :
      Stepped fd connType s (.onConnected c) ((s.setPhase c .opened).push (.socketIn c false))
  | onConnectFailed (c : Nat) (hp : (s.connector c).phase = .connecting) :
      Stepped fd connType s (.onConnectFailed c) ((s.setPhase c .failed).push (.socketIn c true))
  | connectThrows (c : Nat) (hp : (s.connector c).phase = .connecting) :
      Stepped fd connType s (.connectThrows c) (s.setPhase c .lost)
  | closesocket (c : Nat) (hp : (s.connector c).phase = .opened) :
      Stepped fd connType s (.closesocket c) (s.setPhase c .closed)
  | onDisconnected (c : Nat) (hp : (s.connector c).phase = .closed) (hno : .socketOut c ∉ s.pushed) :
      Stepped fd connType s (.onDisconnected c) (s.push (.socketOut c))
  | swap (ht : s.tmpList = []) :
      Stepped fd connType s .swap { s with tmpList := s.tcpConnectorMsgList, tcpConnectorMsgList := [] }
  | process (created : Bool) (refused : List Nat) (msg : TcpConnectorMsg) (rest : List TcpConnectorMsg)
      (ht : s.tmpList = msg :: rest) :
      Stepped fd connType s (.process created refused) ((s.pop msg rest).consum fd connType created refused msg)
  | registered (c : Nat) (hc : c ∈ s.registering) : Stepped fd connType s (.registered c) (s.login fd c)

theorem stepped {s s' : State} {e : Event} (h : s.step fd connType e = some s') : Stepped fd connType s e s' := by
  cases e with
  | reload file refused =>
    simp only [step, Option.some.injEq] at h
    subst h
    exact .reload file refused
  | onConnected c =>
    simp only [step, Option.ite_none_right_eq_some, Option.some.injEq] at h
    obtain ⟨⟨hp, hfd⟩, rfl⟩ := h
    exact .onConnected c hp hfd
  | onConnectFailed c =>
    simp only [step, Option.ite_none_right_eq_some, Option.some.injEq] at h
    obtain ⟨hp, rfl⟩ := h
    exact .onConnectFailed c hp
  | connectThrows c =>
    simp only [step, Option.ite_none_right_eq_some, Option.some.injEq] at h
    obtain ⟨hp, rfl⟩ := h
    exact .connectThrows c hp
  | closesocket c =>
    simp only [step, Option.ite_none_right_eq_some, Option.some.injEq] at h
    obtain ⟨hp, rfl⟩ := h
    exact .closesocket c hp
  | onDisconnected c =>
    simp only [step, Option.ite_none_right_eq_some, Option.some.injEq] at h
    obtain ⟨⟨hp, hno⟩, rfl⟩ := h
    exact .onDisconnected c hp hno
  | swap =>
    simp only [step, Option.ite_none_right_eq_some, Option.some.injEq] at h
    obtain ⟨ht, rfl⟩ := h
    exact .swap ht
  | process created refused =>
    cases ht : s.tmpList with
    | nil => simp [step, ht] at h
    | cons msg rest =>
      simp only [step, ht, Option.some.injEq] at h
      subst h
      exact .process created refused msg rest ht
  | registered c =>
    simp only [step, Option.ite_none_right_eq_some, Option.some.injEq] at h
    obtain ⟨hc, rfl⟩ := h
    exact .registered c hc

theorem matches_iff {k : TcpConnector} {x : PeerInfo} :
    (k.ip = x.ip ∧ k.port.toUInt32 = x.port.toUInt32 ∧ k.listenConnNum = x.instId) ↔ x.peer = k.peer := by
  have hport : k.port.toUInt32 = x.port.toUInt32 ↔ ((x.port.toNat : Int) = k.port.toNat) := by
    rw [← UInt32.toNat_inj]
    simp only [UInt16.toNat_toUInt32]
    omega
  simp only [PeerInfo.peer, TcpConnector.peer, Peer.mk.injEq, hport]
  constructor
  · rintro ⟨h1, h2, h3⟩
    exact ⟨h1.symm, h2, h3.symm⟩
  · rintro ⟨h1, h2, h3⟩
    exact ⟨h1.symm, h2, h3.symm⟩

theorem exist_connector {m : PeerMgr} {k : TcpConnector} :
    m.exist k.ip k.port.toUInt32 k.listenConnNum = true ↔ ∃ x ∈ m.infoVec, x.peer = k.peer := by
  simp only [PeerMgr.exist, List.any_eq_true, Bool.and_eq_true, decide_eq_true_eq, and_assoc, matches_iff]

theorem loginVec_eq_map {k : TcpConnector} {v : Int} {l : List PeerInfo}
    (h : l.Pairwise fun x y => x.instId.toInt < y.instId.toInt) :
    PeerMgr.loginVec k.ip k.port.toUInt32 k.listenConnNum v l =
      l.map fun x => if x.peer = k.peer then { x with fd := v } else x := by
  induction l with
  | nil => rfl
  | cons x l ih =>
    obtain ⟨hx, hl⟩ := List.pairwise_cons.mp h
    unfold PeerMgr.loginVec
    rw [List.map_cons]
    by_cases hm : x.peer = k.peer
    · rw [if_pos (matches_iff.mpr hm), if_pos hm]
      have hrest : ∀ y ∈ l, (if y.peer = k.peer then { y with fd := v } else y) = y := by
        intro y hy
        refine if_neg fun he => ?_
        have hlt := hx y hy
        rw [congrArg Peer.instId (hm.trans he.symm : x.peer = y.peer) |> fun h => (h : x.instId = y.instId)] at hlt
        exact Int.lt_irrefl _ hlt
      rw [List.map_congr_left hrest, List.map_id']
    · rw [if_neg (mt matches_iff.mp hm), if_neg hm, ih hl]

/-- Two routers of zone 1 -/
def routerA : ConfigRouterInfo := { listenIp := "10.0.0.1", listenPort := 7001, instId := 1, svrZone := 1 }

def routerB : ConfigRouterInfo := { listenIp := "10.0.0.2", listenPort := 7001, instId := 2, svrZone := 1 }

/-! ## What the steps leave as it is -/

/-- Connections may have been begun; the others are as they were. -/
structure Grows (s s' : State) : Prop where
  mgr : s'.mgr = s.mgr
  config : s'.config = s.config
  top : s.top ≤ s'.top
  old : ∀ c < s.top, s'.connector c = s.connector c
  begun : ∀ c, s.top ≤ c → c < s'.top → (s'.connector c).phase = .lost ∨ (s'.connector c).phase = .connecting
  fresh : ∀ c, s'.top ≤ c → s'.connector c = s.connector c
  queued : s'.queued = s.queued
  processed : s'.processed = s.processed

theorem Grows.refl (s : State) : Grows s s :=
  ⟨rfl, rfl, Nat.le_refl _, fun _ _ => rfl, fun _ h h' => absurd h (Nat.not_le.mpr h'), fun _ _ => rfl, rfl, rfl⟩

theorem Grows.trans {s s' s'' : State} (h : Grows s s') (h' : Grows s' s'') : Grows s s'' := by
  refine ⟨h'.mgr.trans h.mgr, h'.config.trans h.config, Nat.le_trans h.top h'.top, fun c hc => ?_, fun c hc hc' => ?_,
    fun c hc => ?_, h'.queued.trans h.queued, h'.processed.trans h.processed⟩
  · rw [h'.old c (Nat.lt_of_lt_of_le hc h.top), h.old c hc]
  · by_cases hlt : c < s'.top
    · rw [h'.old c hlt]
      exact h.begun c hc hlt
    · exact h'.begun c (Nat.le_of_not_lt hlt) hc'
  · rw [h'.fresh c hc, h.fresh c (Nat.le_trans h'.top hc)]

theorem connectOne_grows (s : State) (ip : String) (port : UInt16) (connType : Int) (connNum : Int32)
    (refused : List Nat) :
    Grows s (s.connectOne ip port connType connNum refused) := by
  refine ⟨rfl, rfl, Nat.le_succ _, fun c hc => ?_, fun c hc hc' => ?_, fun c hc => ?_, rfl, rfl⟩
  · exact Function.update_of_ne (Nat.ne_of_lt hc) _ _
  · have : c = s.top := Nat.le_antisymm (Nat.le_of_lt_succ hc') hc
    subst this
    simp only [connectOne, Function.update_self]
    split
    · exact .inl rfl
    · exact .inr rfl
  · exact Function.update_of_ne (Nat.ne_of_gt hc) _ _

theorem perform_grows (refused : List Nat) (calls : List NetCall) (s : State) :
    Grows s (calls.foldl (perform refused) s) := by
  induction calls generalizing s with
  | nil => exact .refl s
  | cons call calls ih =>
    cases call with
    | connectOne ip port connType connNum => exact (connectOne_grows s ip port connType connNum refused).trans (ih _)
    | closeFd => exact ih s

theorem setTable_grows (s : State) (t : Int → Option Nat) (registering : List Nat) :
    Grows s { s with tcpConnectorContainer := t, registering } :=
  ⟨rfl, rfl, Nat.le_refl _, fun _ _ => rfl, fun _ h h' => absurd h (Nat.not_le.mpr h'), fun _ _ => rfl, rfl, rfl⟩

theorem transClientIn_grows (s : State) (c : Nat) : Grows s (s.transClientIn connType c) := by
  unfold transClientIn
  split
  · exact setTable_grows s _ _
  · exact .refl s

theorem transClientOut_grows (s : State) (c : Nat) (refused : List Nat) :
    Grows s (s.transClientOut connType c refused) := by
  simp only [transClientOut]
  split
  · exact connectOne_grows ..
  · exact .refl s

theorem consum_grows (s : State) (created : Bool) (refused : List Nat) (msg : TcpConnectorMsg) :
    Grows s (s.consum fd connType created refused msg) := by
  cases msg with
  | socketIn c error =>
    simp only [consum, onConnection]
    split
    · exact connectOne_grows ..
    · split
      · exact .refl s
      · split
        · exact (setTable_grows s _ _).trans (transClientIn_grows _ c)
        · exact setTable_grows s _ _
  | socketOut c =>
    simp only [consum, onDisConnection]
    split
    · exact .refl s
    · split
      · exact (transClientOut_grows s _ refused).trans (setTable_grows _ _ _)
      · exact setTable_grows s _ _

theorem Grows.connector_of_made {s s' : State} (h : Grows s s') {c : Nat} (hl : (s'.connector c).phase ≠ .lost)
    (hc : (s'.connector c).phase ≠ .connecting) : s'.connector c = s.connector c := by
  by_cases hlt : c < s.top
  · exact h.old c hlt
  · by_cases hlt' : c < s'.top
    · rcases h.begun c (Nat.le_of_not_lt hlt) hlt' with hp | hp
      · exact absurd hp hl
      · exact absurd hp hc
    · exact h.fresh c (Nat.le_of_not_lt hlt')

/-- The numbers after the last connection stand for none, the descriptors that are open are different, and an entry of
the table is under its key. -/
structure Valid (fd : Nat → Nat) (connType : Int) (s : State) : Prop where
  fresh : ∀ c, s.top ≤ c → (s.connector c).phase = .lost
  typed : ∀ c, (s.connector c).listenConnType = connType
  distinct : ∀ b c, (s.connector b).phase = .opened → (s.connector c).phase = .opened → fd b = fd c → b = c
  keyed : ∀ k c, s.tcpConnectorContainer k = some c → k = key fd c

theorem Valid.lt_top {s : State} (h : Valid fd connType s) {c : Nat} (hc : (s.connector c).phase ≠ .lost) :
    c < s.top := by
  by_contra hlt
  exact hc (h.fresh c (Nat.le_of_not_lt hlt))

theorem Valid.connector_of_grows {s s' : State} (h : Valid fd connType s) (hg : Grows s s') {c : Nat}
    (hc : (s.connector c).phase ≠ .lost) : s'.connector c = s.connector c := hg.old c (h.lt_top hc)

theorem Valid.grows {s s' : State} (h : Valid fd connType s) (hg : Grows s s')
    (htyped : ∀ c, (s'.connector c).listenConnType = connType)
    (hkeyed : ∀ k c, s'.tcpConnectorContainer k = some c → k = key fd c) : Valid fd connType s' := by
  refine ⟨fun c hc => ?_, htyped, fun b c hb hc hfd => ?_, hkeyed⟩
  · rw [hg.fresh c hc]
    exact h.fresh c (Nat.le_trans hg.top hc)
  · apply h.distinct b c _ _ hfd
    · rwa [← hg.connector_of_made (by simp [hb]) (by simp [hb])]
    · rwa [← hg.connector_of_made (by simp [hc]) (by simp [hc])]

theorem Valid.connectOne {s : State} (h : Valid fd connType s) (ip : String) (port : UInt16) (connNum : Int32)
    (refused : List Nat) : Valid fd connType (s.connectOne ip port connType connNum refused) := by
  refine h.grows (connectOne_grows ..) (fun c => ?_) h.keyed
  by_cases hc : c = s.top
  · subst hc
    simp [State.connectOne]
  · simp only [State.connectOne, Function.update_of_ne hc]
    exact h.typed c

theorem Valid.perform {s : State} (h : Valid fd connType s) (refused : List Nat) {calls : List NetCall}
    (hc : ∀ call ∈ calls, ∀ ip port type num, call = .connectOne ip port type num → type = connType) :
    Valid fd connType (calls.foldl (State.perform refused) s) := by
  induction calls generalizing s with
  | nil => exact h
  | cons call calls ih =>
    obtain ⟨hcall, hcalls⟩ := List.forall_mem_cons.mp hc
    cases call with
    | connectOne ip port type num =>
      have ht := hcall ip port type num rfl
      subst ht
      exact ih (h.connectOne ip port num refused) hcalls
    | closeFd => exact ih h hcalls

theorem Valid.load {s : State} (h : Valid fd connType s) {file : Option (List ConfigRouterInfo)} :
    Valid fd connType (s.load connType file) := ⟨h.fresh, h.typed, h.distinct, h.keyed⟩

theorem Valid.pop {s : State} (h : Valid fd connType s) {msg : TcpConnectorMsg} {rest : List TcpConnectorMsg} :
    Valid fd connType (s.pop msg rest) := ⟨h.fresh, h.typed, h.distinct, h.keyed⟩

theorem Valid.setTable {s : State} (h : Valid fd connType s) {t : Int → Option Nat} (registering : List Nat)
    (ht : ∀ k c, t k = some c → k = key fd c) :
    Valid fd connType { s with tcpConnectorContainer := t, registering } := ⟨h.fresh, h.typed, h.distinct, ht⟩

theorem keyed_insert {t : Int → Option Nat} (ht : ∀ k c, t k = some c → k = key fd c) (b : Nat) :
    ∀ k c, KeyTable.insert (key fd) t b k = some c → k = key fd c := by
  intro k c hk
  unfold KeyTable.insert at hk
  cases hb : t (key fd b) with
  | none =>
    simp only [hb] at hk
    by_cases hkb : k = key fd b
    · subst hkb
      simp only [Function.update_self, Option.some.injEq] at hk
      rw [hk]
    · rw [Function.update_of_ne hkb] at hk
      exact ht k c hk
  | some c' =>
    simp only [hb] at hk
    exact ht k c hk

theorem keyed_erase {t : Int → Option Nat} (ht : ∀ k c, t k = some c → k = key fd c) (b : Int) :
    ∀ k c, KeyTable.erase t b k = some c → k = key fd c := by
  intro k c hk
  by_cases hkb : k = b
  · subst hkb
    simp [KeyTable.erase] at hk
  · rw [KeyTable.erase, Function.update_of_ne hkb] at hk
    exact ht k c hk

theorem Valid.transClientOut {s : State} (h : Valid fd connType s) (c : Nat) (refused : List Nat) :
    Valid fd connType (s.transClientOut connType c refused) := by
  simp only [State.transClientOut, h.typed c]
  split
  · exact h.connectOne ..
  · exact h

theorem Valid.consum {s : State} (h : Valid fd connType s) (created : Bool) (refused : List Nat)
    (msg : TcpConnectorMsg) :
    Valid fd connType (s.consum fd connType created refused msg) := by
  cases msg with
  | socketIn c error =>
    simp only [State.consum, onConnection, transClientIn, h.typed c]
    split
    · exact h.connectOne ..
    · split
      · exact h
      · have hi := keyed_insert h.keyed c
        split
        · exact h.setTable _ hi
        · exact h.setTable _ hi
  | socketOut c =>
    simp only [State.consum, onDisConnection]
    split
    · exact h
    · rename_i c' _
      split
      · have ht := h.transClientOut c' refused
        exact ht.setTable _ (keyed_erase ht.keyed _)
      · exact h.setTable _ (keyed_erase h.keyed _)

theorem setPhase_of_ne {s : State} {b c : Nat} {phase : Phase} (h : b ≠ c) :
    (s.setPhase c phase).connector b = s.connector b := Function.update_of_ne h _ _

theorem ne_of_phase {s : State} {b c : Nat} {p q : Phase} (hb : (s.connector b).phase = p)
    (hc : (s.connector c).phase = q) (h : p ≠ q) : b ≠ c := by
  intro he
  subst he
  exact h (hb.symm.trans hc)

theorem setPhase_self (s : State) (c : Nat) (phase : Phase) :
    (s.setPhase c phase).connector c = { s.connector c with phase } := Function.update_self _ _ _

theorem Valid.setPhase {s : State} (h : Valid fd connType s) {c : Nat} {phase : Phase} (hc : c < s.top)
    (hd : phase = .opened → ∀ b < s.top, (s.connector b).phase = .opened → fd b ≠ fd c) :
    Valid fd connType (s.setPhase c phase) := by
  have hself : ((s.setPhase c phase).connector c).phase = phase := by rw [setPhase_self]
  refine ⟨fun b hb => ?_, fun b => ?_, fun a b ha hb hfd => ?_, h.keyed⟩
  · have hbc : b ≠ c := Nat.ne_of_gt (Nat.lt_of_lt_of_le hc hb)
    rw [setPhase_of_ne hbc]
    exact h.fresh b hb
  · by_cases hb : b = c
    · subst hb
      rw [setPhase_self]
      exact h.typed b
    · rw [setPhase_of_ne hb]
      exact h.typed b
  · by_cases hac : a = c
    · by_cases hbc : b = c
      · rw [hac, hbc]
      · subst hac
        rw [setPhase_of_ne hbc] at hb
        exact absurd hfd.symm (hd (hself ▸ ha) b (h.lt_top (by simp [hb])) hb)
    · rw [setPhase_of_ne hac] at ha
      by_cases hbc : b = c
      · subst hbc
        exact absurd hfd (hd (hself ▸ hb) a (h.lt_top (by simp [ha])) ha)
      · rw [setPhase_of_ne hbc] at hb
        exact h.distinct a b ha hb hfd

theorem reload_calls {m : PeerMgr} {parse : String → Option (List ConfigRouterInfo)} {ip : String} {port : UInt16}
    {type : Int} {num : Int32} (h : .connectOne ip port type num ∈ (m.reload connType parse).1.2) :
    type = connType := by
  unfold PeerMgr.reload reloadFile at h
  split at h
  · simp at h
  · split at h
    · simp at h
    · split at h
      · simp only [PeerMgr.connectPeers, List.mem_append, List.mem_map, NetCall.connectOne.injEq, reduceCtorEq,
          and_false, exists_false, or_false] at h
        obtain ⟨_, _, _, _, ht, _⟩ := h
        exact ht.symm
      · simp at h

theorem Valid.step {s s' : State} {e : Event} (h : Valid fd connType s) (hst : s.step fd connType e = some s') :
    Valid fd connType s' := by
  cases stepped hst with
  | reload file refused =>
    apply h.load.perform
    intro call hcall ip port type num he
    subst he
    exact reload_calls hcall
  | onConnected c hp hfd =>
    have hv : Valid fd connType (s.setPhase c .opened) := h.setPhase (h.lt_top (by simp [hp])) fun _ => hfd
    exact ⟨hv.fresh, hv.typed, hv.distinct, hv.keyed⟩
  | onConnectFailed c hp =>
    have hv : Valid fd connType (s.setPhase c .failed) := h.setPhase (h.lt_top (by simp [hp])) (by simp)
    exact ⟨hv.fresh, hv.typed, hv.distinct, hv.keyed⟩
  | connectThrows c hp => exact h.setPhase (h.lt_top (by simp [hp])) (by simp)
  | closesocket c hp => exact h.setPhase (h.lt_top (by simp [hp])) (by simp)
  | onDisconnected => exact ⟨h.fresh, h.typed, h.distinct, h.keyed⟩
  | swap => exact ⟨h.fresh, h.typed, h.distinct, h.keyed⟩
  | process created refused msg rest => exact h.pop.consum created refused msg
  | registered => exact ⟨h.fresh, h.typed, h.distinct, h.keyed⟩

theorem Valid.init (file : String) (selfServerZone : Int32) : Valid fd connType (init connType file selfServerZone) :=
  ⟨fun _ _ => rfl, fun _ => rfl, fun _ _ h => (by cases h), fun _ _ h => (by cases h)⟩

theorem Valid.of_run {file : String} {selfServerZone : Int32} {C : List Event → State → Event → Prop} {t : List Event}
    {s : State}
    (h : Runs.Run (fun s e s' => s.step fd connType e = some s') C (State.init connType file selfServerZone) t s) :
    Valid fd connType s :=
  h.invariant (fun _ s => Valid fd connType s) (.init file selfServerZone) fun _ _ _ _ _ hi _ hst => hi.step hst

end State

end GlobalServer.PeerConns
