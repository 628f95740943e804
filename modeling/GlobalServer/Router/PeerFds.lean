import GlobalServer.Router.PeerConns

/-!
# The descriptors that a server has of its peers

A descriptor is stored when the registration with a peer is through, and it
stays when the connection is gone. The system may then give the number to any
other connection.
-/

namespace GlobalServer.PeerConns

namespace State

/-- What is stored of a peer is the descriptor of an open connection to it, or nothing. -/
def Held (fd : Nat → Nat) (s : State) (x : PeerInfo) : Prop :=
  x.fd = 0 ∨ ∃ c, (s.connector c).phase = .opened ∧ key fd c = x.fd ∧ (s.connector c).peer = x.peer

def AllHeld (fd : Nat → Nat) (s : State) : Prop := ∀ x ∈ s.mgr.infoVec, s.Held fd x

/-- The peer that gets what `SendDataByFd` is given for a descriptor; nothing can be sent on a closed connection. -/
def reaches (s : State) (v : Int) : Option Peer :=
  (s.tcpConnectorContainer v).bind fun c =>
    if (s.connector c).phase = .opened then some (s.connector c).peer else none

/-- No descriptor is closed while it is stored, and none is stored unless an open connection to the peer has it. -/
def MeetsFds (fd : Nat → Nat) (s : State) : Event → Prop
  | .closesocket c => ∀ x ∈ s.mgr.infoVec, x.fd ≠ key fd c
  | .registered c =>
    s.mgr.exist (s.connector c).ip (s.connector c).port.toUInt32 (s.connector c).listenConnNum = true →
      ∃ b < s.top, (s.connector b).phase = .opened ∧ fd b = fd c ∧ (s.connector b).peer = (s.connector c).peer
  | _ => True

instance (fd : Nat → Nat) (s : State) (e : Event) : Decidable (s.MeetsFds fd e) := by
  unfold MeetsFds
  cases e <;> infer_instance

variable {fd : Nat → Nat} {connType : Int} {s s' : State}

theorem key_ne_zero (fd : Nat → Nat) (c : Nat) : key fd c ≠ 0 := by
  simp only [key, M_TCP_CONNECTOR_FD_FLAG]
  omega

theorem key_inj {b c : Nat} : key fd b = key fd c ↔ fd b = fd c := by
  simp only [key]
  omega

theorem Valid.held_grows (h : Valid fd connType s) (hg : Grows s s') {x : PeerInfo} (hx : s.Held fd x) :
    s'.Held fd x := by
  rcases hx with hx | ⟨c, hc, hk, hp⟩
  · exact .inl hx
  · have he := h.connector_of_grows hg (c := c) (by simp [hc])
    exact .inr ⟨c, by rw [he]; exact hc, hk, by rw [he]; exact hp⟩

theorem held_setPhase {c : Nat} {phase : Phase} {x : PeerInfo} (hx : s.Held fd x)
    (hc : (s.connector c).phase = .opened → key fd c ≠ x.fd) : (s.setPhase c phase).Held fd x := by
  rcases hx with hx | ⟨b, hb, hk, hp⟩
  · exact .inl hx
  · have hne : b ≠ c := by
      rintro rfl
      exact hc hb hk
    have he : (s.setPhase c phase).connector b = s.connector b := setPhase_of_ne hne
    exact .inr ⟨b, by rw [he]; exact hb, hk, by rw [he]; exact hp⟩

theorem reload_entry {m : PeerMgr} {parse : String → Option (List ConfigRouterInfo)} {x : PeerInfo}
    (hx : x ∈ (m.reload connType parse).1.1.infoVec) : x ∈ m.infoVec ∨ x.fd = 0 := by
  unfold PeerMgr.reload reloadFile at hx
  split at hx
  · exact .inl hx
  · split at hx
    · exact .inl hx
    · split at hx
      · obtain ⟨l₁, l₂, he, -⟩ := PeerMgr.mem_connectPeers.mp hx
        have hmem := he ▸ List.mem_append_right l₁ (List.mem_cons_self (l := l₂))
        rcases (PeerMgr.mem_assigned.mp hmem).2 with ⟨i, -, -, rfl⟩ | ⟨hx, -⟩
        · exact .inr rfl
        · exact .inl hx
      · exact .inl hx

theorem allHeld_login {c : Nat} (h : s.AllHeld fd) (hv : Valid fd connType s) :
    (s.login fd c).AllHeld fd ↔ s.MeetsFds fd (.registered c) := by
  have hvec : (s.login fd c).mgr.infoVec =
      s.mgr.infoVec.map fun x => if x.peer = (s.connector c).peer then { x with fd := key fd c } else x :=
    loginVec_eq_map s.mgr.sorted
  constructor
  · intro h' hex
    obtain ⟨x, hx, hp⟩ := exist_connector.mp hex
    have hx' : { x with fd := key fd c } ∈ (s.login fd c).mgr.infoVec := by
      rw [hvec]
      exact List.mem_map.mpr ⟨x, hx, if_pos hp⟩
    rcases h' _ hx' with h0 | ⟨b, hb, hk, hpb⟩
    · exact absurd h0 (key_ne_zero fd c)
    · have hb' : (s.connector b).phase = .opened := hb
      exact ⟨b, hv.lt_top (by simp [hb']), hb', key_inj.mp hk, hpb.trans hp⟩
  · intro hm y hy
    rw [hvec] at hy
    obtain ⟨x, hx, rfl⟩ := List.mem_map.mp hy
    split
    · rename_i hp
      obtain ⟨b, -, hb, hfd, hpb⟩ := hm (exist_connector.mpr ⟨x, hx, hp⟩)
      exact .inr ⟨b, hb, key_inj.mpr hfd, hpb.trans hp.symm⟩
    · exact h x hx

theorem allHeld_step {e : Event} (h : s.AllHeld fd) (hv : Valid fd connType s) (hst : s.step fd connType e = some s') :
    s'.AllHeld fd ↔ s.MeetsFds fd e := by
  cases stepped hst with
  | reload file refused =>
    refine iff_of_true (fun x hx => ?_) trivial
    have hg : Grows (s.load connType file) (s.reload connType file refused) := perform_grows ..
    rw [hg.mgr] at hx
    have hx₀ : (s.load connType file).Held fd x := by
      rcases reload_entry hx with hx | h0
      · exact h x hx
      · exact .inl h0
    exact hv.load.held_grows hg hx₀
  | onConnected c hp => exact iff_of_true (fun x hx => held_setPhase (h x hx) (by simp [hp])) trivial
  | onConnectFailed c hp => exact iff_of_true (fun x hx => held_setPhase (h x hx) (by simp [hp])) trivial
  | connectThrows c hp => exact iff_of_true (fun x hx => held_setPhase (h x hx) (by simp [hp])) trivial
  | closesocket c hp =>
    constructor
    · intro h' x hx he
      -- the descriptor has been the connection's alone, so nothing that is open has it
      rcases h' x hx with h0 | ⟨b, hb, hk, -⟩
      · exact key_ne_zero fd c (he.symm.trans h0)
      · have hbc : b ≠ c := by
          rintro rfl
          rw [setPhase_self] at hb
          cases hb
        have hb' : (s.connector b).phase = .opened := by
          rwa [setPhase_of_ne hbc] at hb
        exact hbc (hv.distinct b c hb' hp (key_inj.mp (hk.trans he)))
    · intro hm x hx
      exact held_setPhase (h x hx) fun _ he => hm x hx he.symm
  | onDisconnected => exact iff_of_true h trivial
  | swap => exact iff_of_true h trivial
  | process created refused msg rest =>
    refine iff_of_true (fun x hx => ?_) trivial
    have hg : Grows (s.pop msg rest) ((s.pop msg rest).consum fd connType created refused msg) := consum_grows ..
    rw [hg.mgr] at hx
    have hx₀ : (s.pop msg rest).Held fd x := h x hx
    exact hv.pop.held_grows hg hx₀
  | registered => exact allHeld_login h hv

theorem reaches_peer {x : PeerInfo} {p : Peer} (hv : Valid fd connType s) (hx : s.Held fd x)
    (hr : s.reaches x.fd = some p) :
    p = x.peer := by
  obtain ⟨b, hb, hr⟩ := Option.bind_eq_some_iff.mp hr
  simp only [Option.ite_none_right_eq_some, Option.some.injEq] at hr
  obtain ⟨hopen, rfl⟩ := hr
  have hkey := hv.keyed _ b hb
  rcases hx with h0 | ⟨c, hc, hk, hp⟩
  · exact absurd (hkey.symm.trans h0) (key_ne_zero fd b)
  · rw [hv.distinct b c hopen hc (key_inj.mp (hkey.symm.trans hk.symm)), hp]

abbrev FdsRun (fd : Nat → Nat) (connType : Int) (file : String) (selfServerZone : Int32) : List Event → State → Prop :=
  Runs.Run (fun s e s' => s.step fd connType e = some s') (fun _ s e => s.MeetsFds fd e) (init connType file selfServerZone)

/-- In all states of a run every stored descriptor is that of an open connection to its peer exactly if no step closes
a descriptor that is stored or stores one that is closed. Where it is so, nothing that is sent by a stored descriptor
reaches another peer. -/
theorem fds_held_iff {file : String} {selfServerZone : Int32} {t : List Event}
    (h : Run fd connType file selfServerZone t s) :
    ((∀ t₁ s₁, t₁ <+: t → Run fd connType file selfServerZone t₁ s₁ → s₁.AllHeld fd) ↔
      FdsRun fd connType file selfServerZone t s) ∧
    (s.AllHeld fd → ∀ x ∈ s.mgr.infoVec, ∀ p, s.reaches x.fd = some p → p = x.peer) := by
  constructor
  · rw [h.always_iff (M := fun _ s e => s.MeetsFds fd e) (fun _ _ _ _ ha hb => Option.some.inj (ha.symm.trans hb))
      (State.AllHeld fd) (by simp [AllHeld, init, PeerMgr.init])
      fun _ _ _ _ hr hp _ hst => allHeld_step hp (.of_run (hr.mono fun _ _ _ _ => trivial)) hst]
    exact ⟨fun h => h.mono fun _ _ _ h => h.2, fun h => h.mono fun _ _ _ h => ⟨trivial, h⟩⟩
  · intro hp x hx p hr
    exact reaches_peer (.of_run h) (hp x hx) hr

/-- A router is configured, connected to and registered with. -/
def registration : List Event := [.reload (some [routerA]) [], .onConnected 0, .swap, .process true [], .registered 0]

theorem fds_held_iff_registered : ∃ s, Run (fun c => c + 5) Enum_ConnType_Router "routers" 1 registration s ∧
    (∀ x ∈ s.mgr.infoVec, ∀ p, s.reaches x.fd = some p → p = x.peer) ∧ s.reaches (2 ^ 33 + 5) = some routerA.peer := by
  have h : (Runs.replay
      (fun s e => if s.MeetsFds (fun c => c + 5) e then s.step (fun c => c + 5) Enum_ConnType_Router e else none)
      (init Enum_ConnType_Router "routers" 1) registration).map (fun s => s.reaches (2 ^ 33 + 5)) =
        some (some routerA.peer) := by decide +kernel
  obtain ⟨s, hs, hr⟩ := Option.map_eq_some_iff.mp h
  have hm := Runs.Run.of_replay_meets hs
  have hrun : Run (fun c => c + 5) Enum_ConnType_Router "routers" 1 registration s := hm.mono fun _ _ _ _ => trivial
  obtain ⟨hiff, hreach⟩ := fds_held_iff hrun
  exact ⟨s, hrun, hreach (hiff.mpr hm registration s List.prefix_rfl hrun), hr⟩

/-- The connection is gone, and its number goes to a connection to a second router. -/
def numberReused : List Event :=
  registration ++ [.closesocket 0, .onDisconnected 0, .swap, .process true [], .reload (some [routerA, routerB]) [],
    .onConnected 2, .swap, .process true []]

/-- What is sent to the first router reaches the second. -/
theorem stale_fd_reaches_other : ∃ s, Run (fun c => if c = 1 then 6 else 5) Enum_ConnType_Router "routers" 1 numberReused s ∧
    ¬ s.AllHeld (fun c => if c = 1 then 6 else 5) ∧
    ∃ x ∈ s.mgr.infoVec, x.peer = routerA.peer ∧ s.reaches x.fd = some routerB.peer := by
  have h : (Runs.replay (step (fun c => if c = 1 then 6 else 5) Enum_ConnType_Router) (init Enum_ConnType_Router "routers" 1)
      numberReused).map (fun s => s.mgr.infoVec.map fun x => (x.peer, s.reaches x.fd)) =
        some [(routerA.peer, some routerB.peer), (routerB.peer, none)] := by decide +kernel
  obtain ⟨s, hs, hr⟩ := Option.map_eq_some_iff.mp h
  have hrun := Runs.Run.of_replay hs
  have hmem : (routerA.peer, some routerB.peer) ∈ s.mgr.infoVec.map fun x => (x.peer, s.reaches x.fd) := by simp [hr]
  obtain ⟨x, hx, he⟩ := List.mem_map.mp hmem
  obtain ⟨hp, hxr⟩ := Prod.mk.inj he
  refine ⟨s, hrun, fun hall => ?_, x, hx, hp, hxr⟩
  have := reaches_peer (.of_run hrun) (hall x hx) hxr
  rw [hp] at this
  exact absurd this (by decide)

end State

end GlobalServer.PeerConns
