import GlobalServer.Lib.Runs

/-!
# Listening: `ListenOne` and `_AcceptHandler`

Each acceptor has one accept pending at a time, bound to the socket that the
next connection will be given to. A socket carries a type and a number, which
`ListenOne` sets on the first one of a listener. `_AcceptHandler` makes the
socket for the accept that follows.
-/

namespace GlobalServer

/-- What a `TcpSocket` says of where it comes from. -/
structure ListenConn where
  listenConnType : Int
  listenConnNum : Int
  deriving DecidableEq

namespace ListenConn

/-- of a new `TcpSocket` -/
def new : ListenConn := { listenConnType := -1, listenConnNum := -1 }

def setListenConn (_ : ListenConn) (type num : Int) : ListenConn := { listenConnType := type, listenConnNum := num }

end ListenConn

/-- A listener, with the arguments of its `ListenOne` and the accepts that have completed on it. -/
structure TcpAcceptor where
  listenType : Int
  listenNum : Int
  /-- the socket that the pending accept is for -/
  clisock : Option ListenConn
  completed : Nat
  deriving DecidableEq

/-- A connection that has been reported by `OnConnected`, with the place of its listener. -/
structure Accepted where
  acceptor : Nat
  clisock : ListenConn
  deriving DecidableEq

structure NetIo where
  acceptors : List TcpAcceptor
  connected : List Accepted
  deriving DecidableEq

inductive AcceptResult where
  /-- there is no descriptor, and whether the acceptor's `SO_ERROR` is an error -/
  | failed (error : Bool)
  /-- a descriptor, and whether `Init` finds its two end points -/
  | descriptor (init : Bool)
  deriving DecidableEq

/-- The error that `_AcceptHandler` is given. -/
def AcceptResult.error : AcceptResult → Bool
  | .failed error => error
  | .descriptor _ => false

inductive ListenEvent where
  | listenOne (listenType listenNum : Int) (error : Bool)
  /-- an accept of a listener completes; `postError` is the error of the next `AsyncAccept` -/
  | accept (acceptor : Nat) (result : AcceptResult) (postError : Bool)
  deriving DecidableEq

/-- `AsyncAccept`, which is given `error` and takes it for its own. -/
def TcpAcceptor.asyncAccept (a : TcpAcceptor) (clisock : ListenConn) (error : Bool) : TcpAcceptor :=
  { a with clisock := if error then none else some clisock }

namespace NetIo

def init : NetIo := { acceptors := [], connected := [] }

/-- `ListenOne`; with an error there is no listener. -/
def listenOne (io : NetIo) (listenType listenNum : Int) (error : Bool) : NetIo :=
  if error then io
  else
    let clisock := ListenConn.new.setListenConn listenType listenNum
    { io with acceptors := io.acceptors ++ [{ listenType, listenNum, clisock := some clisock, completed := 0 }] }

/-- `_AcceptHandler`: unless `Init` fails the socket is reported, and the next accept is posted. -/
def acceptHandler (io : NetIo) (i : Nat) (a : TcpAcceptor) (clisock : ListenConn) (result : AcceptResult)
    (postError : Bool) : NetIo :=
  let next := { a with completed := a.completed + 1 }.asyncAccept .new (result.error || postError)
  { acceptors := io.acceptors.set i next
    connected := if result = .descriptor true then io.connected ++ [{ acceptor := i, clisock }] else io.connected }

def perform (io : NetIo) : ListenEvent → Option NetIo
  | .listenOne listenType listenNum error => some (io.listenOne listenType listenNum error)
  | .accept i result postError =>
    io.acceptors[i]?.bind fun a => a.clisock.map fun clisock => io.acceptHandler i a clisock result postError

def Run : List ListenEvent → NetIo → Prop :=
  Runs.Run (fun io e io' => io.perform e = some io') (fun _ _ _ => True) init

end NetIo

def Enum_ListenType_Transfer : Int := 3

/-- What a transfersvr takes the peer of an accepted connection for. -/
inductive PeerKind where
  | router
  | transfer
  deriving DecidableEq

/-- The branch that `TransClientOut` of the transfersvr takes for an accepted connection. -/
def TransClientOut.peerKind (listenConnType : Int) : PeerKind :=
  if listenConnType = Enum_ListenType_Transfer then .router else .transfer

namespace NetIo

/-- The connection reports what its listener was opened with, and is treated as such when it is gone. -/
def TaggedAs (c : Accepted) (a : TcpAcceptor) : Prop :=
  c.clisock.listenConnType = a.listenType ∧ c.clisock.listenConnNum = a.listenNum ∧
    TransClientOut.peerKind c.clisock.listenConnType = TransClientOut.peerKind a.listenType

def Tagged (io : NetIo) : Prop := ∀ c ∈ io.connected, ∃ a, io.acceptors[c.acceptor]? = some a ∧ TaggedAs c a

/-- No accept has completed on the listener yet, or it was opened with what a new socket reports anyway. -/
def Meets (io : NetIo) : ListenEvent → Prop
  | .accept i (.descriptor true) _ => ∀ a, io.acceptors[i]? = some a →
    a.completed = 0 ∨ a.listenType = -1 ∧ a.listenNum = -1
  | _ => True

/-- The socket of a pending accept is the first one of its listener, or an untagged one. -/
structure Sound (io : NetIo) : Prop where
  pending : ∀ a ∈ io.acceptors, ∀ c, a.clisock = some c →
    c = if a.completed = 0 then ListenConn.new.setListenConn a.listenType a.listenNum else .new
  known : ∀ c ∈ io.connected, c.acceptor < io.acceptors.length

theorem sound_init : Sound init := ⟨fun a h => by simp [init] at h, fun c h => by simp [init] at h⟩

theorem listenOne_sound {io : NetIo} (h : io.Sound) (listenType listenNum : Int) (error : Bool) :
    (io.listenOne listenType listenNum error).Sound := by
  cases error with
  | true => exact h
  | false =>
    refine ⟨fun a ha c hc => ?_, fun c hc => ?_⟩
    · rcases List.mem_append.mp ha with ha | ha
      · exact h.pending a ha c hc
      · simp only [List.mem_singleton] at ha
        subst ha
        simpa using hc.symm
    · have := h.known c hc
      simp only [listenOne, Bool.false_eq_true, if_false, List.length_append]
      omega

theorem acceptHandler_sound {io : NetIo} (h : io.Sound) {i : Nat} {a : TcpAcceptor} (ha : io.acceptors[i]? = some a)
    (clisock : ListenConn) (result : AcceptResult) (postError : Bool) :
    (io.acceptHandler i a clisock result postError).Sound := by
  have hi : i < io.acceptors.length := (List.getElem?_eq_some_iff.mp ha).1
  refine ⟨fun b hb c hc => ?_, fun c hc => ?_⟩
  · rcases List.mem_or_eq_of_mem_set hb with hb | rfl
    · exact h.pending b hb c hc
    · simp only [TcpAcceptor.asyncAccept] at hc ⊢
      split at hc
      · cases hc
      · simpa using hc.symm
  · simp only [acceptHandler, List.length_set] at hc ⊢
    split at hc
    · rcases List.mem_append.mp hc with hc | hc
      · exact h.known c hc
      · simp only [List.mem_singleton] at hc
        subst hc
        exact hi
    · exact h.known c hc

theorem perform_accept {io io' : NetIo} {i : Nat} {result : AcceptResult} {postError : Bool}
    (h : io.perform (.accept i result postError) = some io') :
    ∃ a clisock, io.acceptors[i]? = some a ∧ a.clisock = some clisock ∧
      io' = io.acceptHandler i a clisock result postError := by
  simp only [perform, Option.bind_eq_some_iff, Option.map_eq_some_iff] at h
  obtain ⟨a, ha, clisock, hc, rfl⟩ := h
  exact ⟨a, clisock, ha, hc, rfl⟩

theorem perform_sound {io io' : NetIo} {e : ListenEvent} (h : io.Sound) (hp : io.perform e = some io') : io'.Sound := by
  cases e with
  | listenOne listenType listenNum error =>
    cases hp
    exact listenOne_sound h listenType listenNum error
  | accept i result postError =>
    obtain ⟨a, clisock, ha, -, rfl⟩ := perform_accept hp
    exact acceptHandler_sound h ha clisock result postError

theorem run_sound {t : List ListenEvent} {io : NetIo} (h : Run t io) : io.Sound :=
  Runs.Run.invariant (fun _ io => io.Sound) sound_init (fun _ _ _ _ _ hs _ hp => perform_sound hs hp) h

theorem perform_tag {io io' : NetIo} {e : ListenEvent} (hp : io.perform e = some io') {i : Nat}
    (hi : i < io.acceptors.length) : io'.acceptors[i]?.map (fun a => (a.listenType, a.listenNum)) =
      io.acceptors[i]?.map fun a => (a.listenType, a.listenNum) := by
  cases e with
  | listenOne listenType listenNum error =>
    cases hp
    cases error <;> simp [listenOne, List.getElem?_append_left hi]
  | accept j result postError =>
    obtain ⟨a, clisock, ha, -, rfl⟩ := perform_accept hp
    by_cases hj : j = i
    · subst hj
      rw [ha]
      simp [acceptHandler, TcpAcceptor.asyncAccept, List.getElem?_set_self hi]
    · simp [acceptHandler, List.getElem?_set_ne hj]

theorem taggedAs_congr {c : Accepted} {a a' : TcpAcceptor}
    (h : (a'.listenType, a'.listenNum) = (a.listenType, a.listenNum)) : TaggedAs c a' ↔ TaggedAs c a := by
  obtain ⟨ht, hn⟩ := Prod.mk.inj h
  rw [TaggedAs, TaggedAs, ht, hn]

theorem tagged_old {io io' : NetIo} {e : ListenEvent} (hp : io.perform e = some io') {c : Accepted}
    (hc : c.acceptor < io.acceptors.length) : (∃ a, io'.acceptors[c.acceptor]? = some a ∧ TaggedAs c a) ↔
      ∃ a, io.acceptors[c.acceptor]? = some a ∧ TaggedAs c a := by
  have h := perform_tag hp hc
  have ha : io.acceptors[c.acceptor]? = some io.acceptors[c.acceptor] := List.getElem?_eq_getElem hc
  rw [ha] at h ⊢
  obtain ⟨a', ha', hta⟩ := Option.map_eq_some_iff.mp h
  rw [ha']
  simp [taggedAs_congr hta]

theorem tagged_of_connected {io io' : NetIo} {e : ListenEvent} (hs : io.Sound) (hp : io.perform e = some io')
    (hc : io'.connected = io.connected) : io'.Tagged ↔ io.Tagged := by
  unfold Tagged
  rw [hc]
  exact forall₂_congr fun c h => tagged_old hp (hs.known c h)

/-- The connection of a pending accept is tagged as its listener if the accept is the listener's first. -/
theorem taggedAs_iff {io : NetIo} (hs : io.Sound) {i : Nat} {a : TcpAcceptor} {clisock : ListenConn}
    (ha : a ∈ io.acceptors) (hc : a.clisock = some clisock) :
    TaggedAs ⟨i, clisock⟩ a ↔ a.completed = 0 ∨ a.listenType = -1 ∧ a.listenNum = -1 := by
  have hp := hs.pending a ha clisock hc
  by_cases h0 : a.completed = 0
  · rw [if_pos h0] at hp
    subst hp
    simp [TaggedAs, ListenConn.setListenConn, h0]
  · rw [if_neg h0] at hp
    subst hp
    simp only [TaggedAs, ListenConn.new, h0, false_or]
    constructor
    · intro h
      exact ⟨h.1.symm, h.2.1.symm⟩
    · intro h
      rw [h.1, h.2]
      exact ⟨rfl, rfl, rfl⟩

theorem tagged_step {io io' : NetIo} {e : ListenEvent} (hs : io.Sound) (hp : io.perform e = some io') :
    io'.Tagged ↔ io.Tagged ∧ io.Meets e := by
  cases e with
  | listenOne listenType listenNum error =>
    have hc : io'.connected = io.connected := by
      cases hp
      cases error <;> rfl
    simp [Meets, tagged_of_connected hs hp hc]
  | accept i result postError =>
    obtain ⟨a, clisock, ha, hcl, hio⟩ := perform_accept hp
    by_cases hr : result = .descriptor true
    · subst hr
      have hi : i < io.acceptors.length := (List.getElem?_eq_some_iff.mp ha).1
      have hnew : (∃ b, io'.acceptors[i]? = some b ∧ TaggedAs ⟨i, clisock⟩ b) ↔
          a.completed = 0 ∨ a.listenType = -1 ∧ a.listenNum = -1 := by
        rw [← taggedAs_iff (i := i) hs (List.mem_of_getElem? ha) hcl, tagged_old hp (c := ⟨i, clisock⟩) hi, ha]
        simp
      have hcon : io'.connected = io.connected ++ [⟨i, clisock⟩] := by simp [hio, acceptHandler]
      have hold : (∀ c ∈ io.connected, ∃ b, io'.acceptors[c.acceptor]? = some b ∧ TaggedAs c b) ↔ io.Tagged :=
        forall₂_congr fun c h => tagged_old hp (hs.known c h)
      simp only [Meets, ha, Option.some.injEq, forall_eq', ← hold, ← hnew]
      simp [Tagged, hcon, or_imp, forall_and]
    · have hc : io'.connected = io.connected := by simp [hio, acceptHandler, hr]
      have hm : io.Meets (.accept i result postError) := by
        cases result with
        | failed error => trivial
        | descriptor init => cases init with
          | false => trivial
          | true => exact absurd rfl hr
      simp [hm, tagged_of_connected hs hp hc]

/-- A run in which each accept that gives a connection is the first to complete on its listener, unless the
listener's type and number are both -1. -/
def MeetingRun : List ListenEvent → NetIo → Prop :=
  Runs.Run (fun io e io' => io.perform e = some io') (fun _ io e => io.Meets e) init

/-- After exactly these runs every accepted connection reports the type and the number of its listener. -/
theorem tagged_iff {t : List ListenEvent} {io : NetIo} (h : Run t io) : io.Tagged ↔ MeetingRun t io := by
  have hiff := Runs.Run.iff_forall (M := fun _ io e => io.Meets e) Tagged (fun c hc => by simp [init] at hc)
    (fun _ _ _ _ hr _ hst => tagged_step (run_sound hr) hst) h
  rw [hiff]
  constructor
  · intro hm
    exact hm.mono fun _ _ _ h => h.2
  · intro hm
    exact hm.mono fun _ _ _ h => ⟨trivial, h⟩

/-- A router and then a second one come to a transfersvr's listener for routers. -/
def twoRouters : List ListenEvent :=
  [.listenOne Enum_ListenType_Transfer 0 false, .accept 0 (.descriptor true) false, .accept 0 (.descriptor true) false]

theorem tagged_iff_first : ∃ io, Run (twoRouters.take 2) io ∧ io.Tagged ∧ MeetingRun (twoRouters.take 2) io := by
  have h : Run ([] ++ [.listenOne Enum_ListenType_Transfer 0 false] ++ [.accept 0 (.descriptor true) false]) _ :=
    .snoc (.snoc .nil trivial rfl) trivial rfl
  have ht := (tagged_iff h).mpr (.snoc (.snoc .nil trivial rfl) (fun a ha => by cases ha; exact .inl rfl) rfl)
  exact ⟨_, h, ht, (tagged_iff h).mp ht⟩

/-- The second one's is not: its connection is taken for that of a transfer. -/
theorem second_router_untagged : ∃ io, Run twoRouters io ∧ ¬ io.Tagged ∧
    ∃ c ∈ io.connected, TransClientOut.peerKind c.clisock.listenConnType = .transfer := by
  have h : Run ([] ++ [.listenOne Enum_ListenType_Transfer 0 false] ++ [.accept 0 (.descriptor true) false] ++
      [.accept 0 (.descriptor true) false]) _ := .snoc (.snoc (.snoc .nil trivial rfl) trivial rfl) trivial rfl
  refine ⟨_, h, fun ht => ?_, ⟨0, .new⟩, by decide, rfl⟩
  obtain ⟨a, ha, hta⟩ := ht ⟨0, .new⟩ (by decide)
  cases ha
  exact absurd hta.1 (by decide)

end NetIo

end GlobalServer
