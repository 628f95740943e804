import GlobalServer.Router.PeerConns

/-!
# The supervision of the connections

A configured peer is to have an open connection, an attempt that is under way,
or a message about the end of one, which begins the next. The messages are the
operations on the table of the connections.
-/

namespace GlobalServer.PeerConns

namespace State

/-- What has become of a connection does not need to be seen to, or is going to be: it is being made or open, or the
message about its end has not been processed. -/
def Active (s : State) (c : Nat) : Prop :=
  (s.connector c).phase = .connecting ∨ (s.connector c).phase = .opened ∨
    ((s.connector c).phase = .closed ∧ .socketOut c ∉ s.processed) ∨ .socketIn c true ∈ s.queued

structure Supervised (s : State) : Prop where
  covered : ∀ p, s.Configured p → ∃ c, (s.connector c).peer = p ∧ s.Active c
  dialed : ∀ d ∈ s.dials, d.2 = true

/-- No attempt fails at once or by an exception, a connection does not come before those that had its number have gone,
no failed attempt was to a peer that is not configured any more, there is a transaction for every connection that is
gone, and no peer of the vector is configured for another zone only. -/
def MeetsSupervision (fd : Nat → Nat) (s : State) : Event → Prop
  | .reload file refused => (∀ c ∈ refused, c < s.top) ∧ ∀ items ∈ file,
      distinctIds [] ((items.filter fun i => i.svrZone = s.mgr.selfServerZone).map fun i => i.instId) = true →
        s.mgr.Stays items
  | .onConnected c => ∀ b < s.top, fd b = fd c → .socketIn b false ∈ s.pushed → .socketOut b ∈ s.pushed
  | .connectThrows c => ¬ s.Configured (s.connector c).peer
  | .process created refused => (∀ c ∈ refused, c < s.top) ∧ ∀ msg ∈ s.tmpList.head?, match msg with
      | .socketIn _ false => True
      | .socketIn c true => s.Configured (s.connector c).peer
      | .socketOut c => s.Configured (s.connector c).peer → created = true
  | _ => True

instance (fd : Nat → Nat) (s : State) : ∀ e, Decidable (s.MeetsSupervision fd e)
  | .reload file _ => inferInstanceAs (Decidable (_ ∧ ∀ items ∈ file, _ → _))
  | .onConnected _ => inferInstanceAs (Decidable (∀ b < s.top, _ → _ → _))
  | .connectThrows _ => inferInstanceAs (Decidable (¬ _))
  | .process _ _ => by
    refine @instDecidableAnd _ _ inferInstance (@Option.decidableForallMem _ _ (fun msg => ?_) _)
    split <;> infer_instance
  | .onConnectFailed _ | .closesocket _ | .onDisconnected _ | .swap | .registered _ => isTrue trivial

def op : TcpConnectorMsg → Option (KeyTable.Op Nat)
  | .socketIn c false => some (.enter c)
  | .socketIn _ true => none
  | .socketOut c => some (.leave c)

def ops (msgs : List TcpConnectorMsg) : List (KeyTable.Op Nat) := msgs.filterMap op

theorem ops_append (msgs msgs' : List TcpConnectorMsg) : ops (msgs ++ msgs') = ops msgs ++ ops msgs' :=
  List.filterMap_append

theorem mem_ops {msgs : List TcpConnectorMsg} {msg : TcpConnectorMsg} {o : KeyTable.Op Nat}
    (h : ∀ m, op m = some o ↔ m = msg) : o ∈ ops msgs ↔ msg ∈ msgs := by
  simp [ops, List.mem_filterMap, h]

theorem enter_mem_ops {msgs : List TcpConnectorMsg} {c : Nat} :
    .enter c ∈ ops msgs ↔ .socketIn c false ∈ msgs := by
  refine mem_ops fun m => ?_
  cases m with
  | socketIn b error => cases error <;> simp [op]
  | socketOut b => simp [op]

theorem leave_mem_ops {msgs : List TcpConnectorMsg} {c : Nat} : .leave c ∈ ops msgs ↔ .socketOut c ∈ msgs := by
  refine mem_ops fun m => ?_
  cases m with
  | socketIn b error => cases error <;> simp [op]
  | socketOut b => simp [op]

variable {fd : Nat → Nat} {connType : Int} {s s' : State}

/-- The messages are in order and the table is what the processed ones make; a connection has been announced if it has
been made, and its end only if it is closed. -/
structure Ordered (fd : Nat → Nat) (s : State) : Prop where
  orderly : KeyTable.Orderly (key fd) (ops s.pushed)
  table : s.tcpConnectorContainer = KeyTable.after (key fd) (ops s.processed)
  ins : ∀ c, .socketIn c false ∈ s.pushed ↔ (s.connector c).phase = .opened ∨ (s.connector c).phase = .closed
  outs : ∀ c, .socketOut c ∈ s.pushed → (s.connector c).phase = .closed
  fails : ∀ c, .socketIn c true ∈ s.pushed → (s.connector c).phase = .failed

theorem pushed_push (s : State) (msg : TcpConnectorMsg) : (s.push msg).pushed = s.pushed ++ [msg] := by
  simp [pushed, push]

theorem pushed_eq (s : State) : s.pushed = s.processed ++ s.queued := by simp [pushed, queued]

theorem pop_pushed {msg : TcpConnectorMsg} {rest : List TcpConnectorMsg} (h : s.tmpList = msg :: rest) :
    (s.pop msg rest).pushed = s.pushed := by simp [pushed, pop, h]

theorem perform_container (refused : List Nat) (calls : List NetCall) (s : State) :
    (calls.foldl (perform refused) s).tcpConnectorContainer = s.tcpConnectorContainer := by
  induction calls generalizing s with
  | nil => rfl
  | cons call calls ih =>
    rw [List.foldl_cons, ih]
    cases call <;> rfl

theorem consum_table (s : State) (created : Bool) (refused : List Nat) (msg : TcpConnectorMsg) :
    (s.consum fd connType created refused msg).tcpConnectorContainer =
      (ops [msg]).foldl (KeyTable.Op.apply (key fd)) s.tcpConnectorContainer := by
  cases msg with
  | socketIn c error =>
    cases error with
    | true => rfl
    | false =>
      show _ = KeyTable.insert (key fd) s.tcpConnectorContainer c
      simp only [consum, onConnection, Bool.false_eq_true, if_false]
      split
      · rename_i hk
        simp only [KeyTable.insert, hk]
      · split
        · unfold transClientIn
          split <;> rfl
        · rfl
  | socketOut c =>
    show _ = KeyTable.erase s.tcpConnectorContainer (key fd c)
    simp only [consum, onDisConnection]
    split
    · rename_i hk
      rw [KeyTable.erase, ← hk, Function.update_eq_self]
    · split
      · simp only [transClientOut]
        split <;> rfl
      · rfl

theorem Ordered.grows {s₀ : State} (h : Ordered fd s) (hv : Valid fd connType s₀) (hg : Grows s₀ s')
    (hc : s₀.connector = s.connector) (hp : s₀.pushed = s.pushed)
    (ht : s'.tcpConnectorContainer = KeyTable.after (key fd) (ops s'.processed)) :
    Ordered fd s' := by
  have hpushed : s'.pushed = s.pushed := by rw [← hp, pushed_eq, pushed_eq, hg.queued, hg.processed]
  refine ⟨hpushed ▸ h.orderly, ht, fun c => ?_, fun c hm => ?_, fun c hm => ?_⟩
  · rw [hpushed, h.ins c, ← hc]
    constructor
    · intro hp
      rw [hv.connector_of_grows hg (by rcases hp with hp | hp <;> simp [hp])]
      exact hp
    · intro hp
      rw [← hg.connector_of_made (by rcases hp with hp | hp <;> simp [hp]) (by rcases hp with hp | hp <;> simp [hp])]
      exact hp
  · have hp := h.outs c (hpushed ▸ hm)
    rw [← hc] at hp
    rw [hv.connector_of_grows hg (by simp [hp])]
    exact hp
  · have hp := h.fails c (hpushed ▸ hm)
    rw [← hc] at hp
    rw [hv.connector_of_grows hg (by simp [hp])]
    exact hp

theorem Ordered.attempted {c : Nat} {phase : Phase} {msgs : List TcpConnectorMsg} (h : Ordered fd s)
    (hc : (s.connector c).phase = .connecting) (hn : s'.connector = (s.setPhase c phase).connector)
    (hpushed : s'.pushed = s.pushed ++ msgs) (ht : s'.tcpConnectorContainer = s.tcpConnectorContainer)
    (hproc : s'.processed = s.processed) (ho : KeyTable.Orderly (key fd) (ops s.pushed ++ ops msgs))
    (hin : ∀ b, .socketIn b false ∈ msgs ↔ b = c ∧ phase = .opened) (hclosed : phase ≠ .closed)
    (hout : ∀ b, .socketOut b ∉ msgs) (hfail : ∀ b, .socketIn b true ∈ msgs → b = c ∧ phase = .failed) :
    Ordered fd s' := by
  refine ⟨by rw [hpushed, ops_append]; exact ho, by rw [ht, hproc, h.table], fun b => ?_, fun b hm => ?_, fun b hm => ?_⟩
  · rw [hpushed, List.mem_append, h.ins b, hin b, hn]
    by_cases hb : b = c
    · subst hb
      simp [setPhase_self, hc, hclosed]
    · simp [setPhase_of_ne hb, hb]
  · rw [hpushed, List.mem_append, or_iff_left (hout b)] at hm
    have hp := h.outs b hm
    rw [hn, setPhase_of_ne (ne_of_phase hp hc (by simp))]
    exact hp
  · rw [hn]
    by_cases hb : b = c
    · subst hb
      rw [setPhase_self]
      rcases List.mem_append.mp (hpushed ▸ hm) with hm | hm
      · have hp := h.fails b hm
        rw [hc] at hp
        cases hp
      · exact (hfail b hm).2
    · rw [setPhase_of_ne hb]
      rcases List.mem_append.mp (hpushed ▸ hm) with hm | hm
      · exact h.fails b hm
      · exact absurd (hfail b hm).1 hb

theorem Ordered.step {e : Event} (h : Ordered fd s) (hv : Valid fd connType s) (hm : s.MeetsSupervision fd e)
    (hst : s.step fd connType e = some s') : Ordered fd s' := by
  cases stepped hst with
  | reload file refused =>
    have hg : Grows (s.load connType file) (s.reload connType file refused) := perform_grows ..
    refine h.grows hv.load hg rfl rfl ?_
    rw [hg.processed, State.reload, perform_container]
    exact h.table
  | onConnected c hp =>
    have hnew : .socketIn c false ∉ s.pushed := by simp [h.ins c, hp]
    refine h.attempted (c := c) hp rfl (pushed_push _ _) rfl rfl ?_ (by simp) (by simp) (by simp) (by simp)
    refine .enter h.orderly (fun he => hnew (enter_mem_ops.mp he)) fun b hb he => ?_
    have hin := enter_mem_ops.mp he
    have hlt : b < s.top := hv.lt_top (by rcases (h.ins b).mp hin with hb | hb <;> simp [hb])
    exact leave_mem_ops.mpr (hm b hlt (by simpa [key] using hb) hin)
  | onConnectFailed c hp =>
    refine h.attempted (c := c) hp rfl (pushed_push _ _) rfl rfl ?_ (by simp) (by simp) (by simp) (by simp)
    have hnone : ops [.socketIn c true] = [] := rfl
    rw [hnone, List.append_nil]
    exact h.orderly
  | connectThrows c hp =>
    refine h.attempted (c := c) hp rfl (List.append_nil _).symm rfl rfl ?_ (by simp) (by simp) (by simp) (by simp)
    have hnone : ops [] = [] := rfl
    rw [hnone, List.append_nil]
    exact h.orderly
  | closesocket c hp =>
    refine ⟨h.orderly, h.table, fun b => ?_, fun b hm => ?_, fun b hm => ?_⟩
    · show _ ∈ s.pushed ↔ _
      rw [h.ins b]
      by_cases hb : b = c
      · subst hb
        simp [setPhase_self, hp]
      · rw [setPhase_of_ne hb]
    · have hpb := h.outs b hm
      rw [setPhase_of_ne (ne_of_phase hpb hp (by simp))]
      exact hpb
    · have hpb := h.fails b hm
      rw [setPhase_of_ne (ne_of_phase hpb hp (by simp))]
      exact hpb
  | onDisconnected c hp hno =>
    refine ⟨?_, h.table, fun b => ?_, fun b hm => ?_, fun b hm => ?_⟩
    · rw [pushed_push, ops_append]
      exact .leave h.orderly (enter_mem_ops.mpr ((h.ins c).mpr (.inr hp))) fun hl => hno (leave_mem_ops.mp hl)
    · rw [pushed_push]
      simp only [List.mem_append, List.mem_singleton, reduceCtorEq, or_false]
      exact h.ins b
    · rw [pushed_push] at hm
      simp only [List.mem_append, List.mem_singleton, TcpConnectorMsg.socketOut.injEq] at hm
      rcases hm with hm | rfl
      · exact h.outs b hm
      · exact hp
    · rw [pushed_push] at hm
      simp only [List.mem_append, List.mem_singleton, reduceCtorEq, or_false] at hm
      exact h.fails b hm
  | swap ht =>
    have hpushed : { s with tmpList := s.tcpConnectorMsgList, tcpConnectorMsgList := [] }.pushed = s.pushed := by
      simp [pushed, ht]
    exact ⟨hpushed ▸ h.orderly, h.table, fun b => by rw [hpushed]; exact h.ins b, fun b hm => h.outs b (hpushed ▸ hm),
      fun b hm => h.fails b (hpushed ▸ hm)⟩
  | process created refused msg rest ht =>
    have hg : Grows (s.pop msg rest) ((s.pop msg rest).consum fd connType created refused msg) := consum_grows ..
    refine h.grows hv.pop hg rfl (pop_pushed ht) ?_
    rw [hg.processed, consum_table]
    simp only [State.pop, h.table, ops_append, KeyTable.after, List.foldl_append]
  | registered => exact ⟨h.orderly, h.table, h.ins, h.outs, h.fails⟩

/-! ## Nobody is left out -/

theorem Ordered.not_lost {c : Nat} (h : Ordered fd s) (ha : s.Active c) : (s.connector c).phase ≠ .lost := by
  rcases ha with ha | ha | ha | ha
  · simp [ha]
  · simp [ha]
  · simp [ha.1]
  · have hp := h.fails c (by rw [pushed_eq]; exact List.mem_append_right _ ha)
    simp [hp]

theorem Active.congr {c : Nat} (h : s.Active c) (hc : s'.connector c = s.connector c)
    (hout : .socketOut c ∈ s'.processed → .socketOut c ∈ s.processed)
    (hin : .socketIn c true ∈ s.queued → .socketIn c true ∈ s'.queued) : s'.Active c := by
  unfold Active
  rw [hc]
  exact h.imp_right (Or.imp_right (Or.imp (And.imp_right (mt hout)) hin))

theorem connectOne_active (s : State) (k : TcpConnector) {refused : List Nat} (hr : ∀ c ∈ refused, c < s.top) :
    ((s.connectOne k.ip k.port k.listenConnType k.listenConnNum refused).connector s.top).peer = k.peer ∧
      ((s.connectOne k.ip k.port k.listenConnType k.listenConnNum refused).connector s.top).phase = .connecting := by
  have hn : s.top ∉ refused := fun h => Nat.lt_irrefl _ (hr _ h)
  simp [connectOne, hn, TcpConnector.peer]

theorem connectOne_dialed {s : State} {k : TcpConnector} {refused : List Nat} (h : ∀ d ∈ s.dials, d.2 = true)
    (hk : s.Configured k.peer) :
    ∀ d ∈ (s.connectOne k.ip k.port k.listenConnType k.listenConnNum refused).dials, d.2 = true := by
  intro d hd
  rcases List.mem_append.mp hd with hd | hd
  · exact h d hd
  · simp only [List.mem_singleton] at hd
    subst hd
    exact decide_eq_true hk

theorem perform_begun {refused : List Nat} {calls : List NetCall} {s : State} {ip : String} {port : UInt16} {num : Int32}
    {type : Int} (hr : ∀ c ∈ refused, c < s.top) (hcall : .connectOne ip port type num ∈ calls) :
    ∃ c, ((calls.foldl (perform refused) s).connector c).peer = { ip, port := port.toNat, instId := num } ∧
      ((calls.foldl (perform refused) s).connector c).phase = .connecting := by
  induction calls generalizing s with
  | nil => cases hcall
  | cons call calls ih =>
    have hg : Grows s (perform refused s call) := perform_grows refused [call] s
    rcases List.mem_cons.mp hcall with rfl | hcall
    · obtain ⟨hp, hph⟩ := connectOne_active s
        { ip, port, listenConnType := type, listenConnNum := num, phase := .connecting } hr
      have hold := (perform_grows refused calls (s.connectOne ip port type num refused)).old s.top (Nat.lt_succ_self _)
      exact ⟨s.top, (congrArg TcpConnector.peer hold).trans hp, (congrArg TcpConnector.phase hold).trans hph⟩
    · exact ih (fun c hc => Nat.lt_of_lt_of_le (hr c hc) hg.top) hcall

theorem Grows.configured {s s' : State} (h : Grows s s') (p : Peer) : s'.Configured p ↔ s.Configured p := by
  unfold Configured
  rw [h.config, h.mgr]

theorem perform_dials {refused : List Nat} {calls : List NetCall} {s : State} (h : ∀ d ∈ s.dials, d.2 = true)
    (hcalls : ∀ ip port type num, .connectOne ip port type num ∈ calls →
      s.Configured { ip, port := UInt16.toNat port, instId := num }) :
    ∀ d ∈ (calls.foldl (perform refused) s).dials, d.2 = true := by
  induction calls generalizing s with
  | nil => exact h
  | cons call calls ih =>
    have hg : Grows s (perform refused s call) := perform_grows refused [call] s
    refine ih ?_ fun ip port type num hc => (hg.configured _).mpr (hcalls ip port type num (List.mem_cons_of_mem _ hc))
    cases call with
    | closeFd => exact h
    | connectOne ip port type num =>
      exact connectOne_dialed (k := { ip, port, listenConnType := type, listenConnNum := num, phase := .connecting }) h
        (hcalls ip port type num List.mem_cons_self)

theorem load_cases (connType : Int) (s : State) (file : Option (List ConfigRouterInfo)) :
    (s.load connType file = s ∧ (s.mgr.reload connType fun _ => file).1.2 = []) ∨
    ∃ items, file = some items ∧
      distinctIds [] ((items.filter fun i => i.svrZone = s.mgr.selfServerZone).map fun i => i.instId) = true ∧
      (s.mgr.reload connType fun _ => file).1 = s.mgr.connectPeers connType items ∧
      s.load connType file = { s with mgr := (s.mgr.connectPeers connType items).1, config := items } := by
  by_cases hr : (s.mgr.reload connType fun _ => file).2 = 0
  · by_cases hf : s.mgr.file = ""
    · left
      have he : s.mgr.reload connType (fun _ => file) = ((s.mgr, []), 0) := if_pos hf
      simp only [load, he, hf]
      simp
    · cases file with
      | none =>
        have he : s.mgr.reload connType (fun _ => none) = ((s.mgr, []), -1) := if_neg hf
        rw [he] at hr
        cases hr
      | some items =>
        right
        obtain ⟨hd, he⟩ := reloadFile_ok hf rfl hr
        have he' : (s.mgr.reload connType fun _ => some items).1 = s.mgr.connectPeers connType items := he
        refine ⟨items, rfl, hd, he', ?_⟩
        simp only [load, he', hr]
        simp [hf]
  · left
    have he : (s.mgr.reload connType fun _ => file).1 = (s.mgr, []) := reloadFile_error hr
    simp only [load, he, hr]
    simp

/-- The vector holds the configured peers, and all of them are seen to. -/
structure Kept (s : State) : Prop extends Supervised s where
  peers : ∀ p, s.Configured p ↔ ∃ x ∈ s.mgr.infoVec, x.peer = p

theorem Kept.of_active (h : Kept s) (hconf : ∀ p, s'.Configured p ↔ s.Configured p)
    (hvec : ∀ p, (∃ x ∈ s'.mgr.infoVec, x.peer = p) ↔ ∃ x ∈ s.mgr.infoVec, x.peer = p) (hd : ∀ d ∈ s'.dials, d.2 = true)
    (ha : ∀ c, s.Configured (s.connector c).peer → s.Active c →
      ∃ b, (s'.connector b).peer = (s.connector c).peer ∧ s'.Active b) : Kept s' := by
  refine ⟨⟨fun p hp => ?_, hd⟩, fun p => ?_⟩
  · obtain ⟨c, rfl, hc⟩ := h.covered p ((hconf p).mp hp)
    exact ha c ((hconf _).mp hp) hc
  · rw [hconf, hvec]
    exact h.peers p

theorem Kept.setPhase {c : Nat} {phase : Phase} {msgs : List TcpConnectorMsg} (h : Kept s)
    (hs : s' = { s.setPhase c phase with tcpConnectorMsgList := s.tcpConnectorMsgList ++ msgs })
    (hc : s.Configured (s.connector c).peer → s'.Active c) : Kept s' := by
  subst hs
  refine h.of_active (fun _ => Iff.rfl) (fun _ => Iff.rfl) h.dialed fun b hconf hb => ⟨b, ?_, ?_⟩
  · show ((s.setPhase c phase).connector b).peer = _
    by_cases hbc : b = c
    · subst hbc
      rw [setPhase_self]
      rfl
    · rw [setPhase_of_ne hbc]
  · by_cases hbc : b = c
    · subst hbc
      exact hc hconf
    · refine hb.congr (setPhase_of_ne hbc) id fun hq => ?_
      show _ ∈ s.tmpList ++ (s.tcpConnectorMsgList ++ msgs)
      rw [← List.append_assoc]
      exact List.mem_append_left _ hq

theorem Kept.reload {file : Option (List ConfigRouterInfo)} {refused : List Nat} (h : Kept s) (ho : Ordered fd s)
    (hv : Valid fd connType s) (hm : s.MeetsSupervision fd (.reload file refused)) :
    Kept (s.reload connType file refused) := by
  obtain ⟨hr, hstays⟩ := hm
  rcases load_cases connType s file with ⟨hl, hcalls⟩ | ⟨items, rfl, hd, hcalls, hl⟩
  · rw [State.reload, hcalls, hl]
    exact h
  · have hR := PeerMgr.reloaded_of_stays ((distinctIds_iff [] _).mp hd).1 (hstays items rfl hd) connType
    have hg : Grows (s.load connType (some items)) (s.reload connType (some items) refused) := perform_grows ..
    -- the configuration, before anybody is called
    have hconf : ∀ p, (s.load connType (some items)).Configured p ↔
        ∃ i ∈ items, i.svrZone = s.mgr.selfServerZone ∧ i.peer = p := by
      intro p
      rw [hl]
      rfl
    have hpeer : ∀ i ∈ items, i.svrZone = s.mgr.selfServerZone →
        { ip := i.listenIp, port := (UInt16.ofInt i.listenPort.toInt).toNat, instId := i.instId } = i.peer :=
      fun i hi hz => PeerMgr.newInfo_peer ((hstays items rfl hd).1 i hi hz)
    refine ⟨⟨fun p hp => ?_, ?_⟩, fun p => ?_⟩
    · obtain ⟨i, hi, hz, rfl⟩ := (hconf p).mp ((hg.configured p).mp hp)
      by_cases hold : ∃ x ∈ s.mgr.infoVec, x.peer = i.peer
      · obtain ⟨c, hc, ha⟩ := h.covered i.peer ((h.peers _).mpr hold)
        have hold : (s.reload connType (some items) refused).connector c = s.connector c :=
          hv.load.connector_of_grows hg (ho.not_lost ha)
        refine ⟨c, by rw [hold]; exact hc, ha.congr hold (fun hm => ?_) fun hq => ?_⟩
        · rwa [hg.processed] at hm
        · rwa [hg.queued]
      · have hcall : .connectOne i.listenIp (.ofInt i.listenPort.toInt) connType i.instId ∈
            (s.mgr.reload connType fun _ => some items).1.2 := by
          rw [hcalls, hR.calls]
          refine List.mem_append_left _ (List.mem_map.mpr ⟨i, List.mem_filter.mpr ⟨hi, ?_⟩, rfl⟩)
          push Not at hold
          exact decide_eq_true ⟨hz, hold⟩
        obtain ⟨c, hp, hph⟩ := perform_begun (s := s.load connType (some items)) hr hcall
        exact ⟨c, hp.trans (hpeer i hi hz), .inl hph⟩
    · refine perform_dials h.dialed fun ip port type num hcall => (hconf _).mpr ?_
      rw [hcalls, hR.calls] at hcall
      simp only [List.mem_append, List.mem_map, List.mem_filter, decide_eq_true_eq, NetCall.connectOne.injEq,
        reduceCtorEq,
        and_false, exists_false, or_false] at hcall
      obtain ⟨i, ⟨hi, hz, -⟩, rfl, rfl, -, rfl⟩ := hcall
      exact ⟨i, hi, hz, (hpeer i hi hz).symm⟩
    · rw [hg.configured, hconf, hg.mgr, hl]
      exact (hR.peers p).symm

section
variable {created : Bool} {refused : List Nat} {msg : TcpConnectorMsg} {rest : List TcpConnectorMsg}
  (ho : Ordered fd s) (ht : s.tmpList = msg :: rest)
include ho ht

theorem active_process (hv : Valid fd connType s) {b : Nat} (hb : s.Active b) (hout : msg ≠ .socketOut b)
    (hin : msg ≠ .socketIn b true) :
    ∃ b', (((s.pop msg rest).consum fd connType created refused msg).connector b').peer = (s.connector b).peer ∧
      ((s.pop msg rest).consum fd connType created refused msg).Active b' := by
  have hg : Grows (s.pop msg rest) ((s.pop msg rest).consum fd connType created refused msg) := consum_grows ..
  have hold := hv.pop.connector_of_grows hg (ho.not_lost hb)
  refine ⟨b, congrArg TcpConnector.peer hold, hb.congr hold (fun hm => ?_) fun hq => ?_⟩
  · rw [hg.processed] at hm
    rcases List.mem_append.mp hm with hm | hm
    · exact hm
    · exact absurd (List.mem_singleton.mp hm).symm hout
  · rw [hg.queued]
    rw [queued, ht, List.cons_append] at hq
    rcases List.mem_cons.mp hq with hq | hq
    · exact absurd hq.symm hin
    · exact hq

/-- The message of a connection that is gone finds its own entry, and the next attempt is begun if the peer is
configured. -/
theorem consum_socketOut {c : Nat} (hmsg : msg = .socketOut c) :
    (s.pop msg rest).consum fd connType created refused msg =
      let s₀ := if created then (s.pop msg rest).transClientOut connType c refused else s.pop msg rest
      { s₀ with tcpConnectorContainer := KeyTable.erase s₀.tcpConnectorContainer (key fd c) } := by
  subst hmsg
  have hord : KeyTable.Orderly (key fd) (ops s.processed ++ [.leave c]) := by
    have h := ho.orderly
    have hp : s.pushed = (s.processed ++ [.socketOut c]) ++ (rest ++ s.tcpConnectorMsgList) := by simp [pushed, ht]
    rw [hp, ops_append, ops_append] at h
    exact h.of_append
  have hk : (s.pop (.socketOut c) rest).tcpConnectorContainer (key fd c) = some c := by
    show s.tcpConnectorContainer (key fd c) = some c
    rw [ho.table]
    exact hord.leaves_own
  simp only [consum, onDisConnection, hk]

end

theorem transClientOut_eq (hp : ∀ p, s.Configured p ↔ ∃ x ∈ s.mgr.infoVec, x.peer = p)
    (hv : Valid fd connType s) (c : Nat) (refused : List Nat) :
    s.transClientOut connType c refused =
      if s.Configured (s.connector c).peer then
        s.connectOne (s.connector c).ip (s.connector c).port (s.connector c).listenConnType
          (s.connector c).listenConnNum refused
      else s := by
  simp only [transClientOut, hv.typed c, true_and, exist_connector, ← hp]

theorem transClientOut_dialed (hp : ∀ p, s.Configured p ↔ ∃ x ∈ s.mgr.infoVec, x.peer = p) (hv : Valid fd connType s)
    (h : ∀ d ∈ s.dials, d.2 = true) (c : Nat) (refused : List Nat) :
    ∀ d ∈ (s.transClientOut connType c refused).dials, d.2 = true := by
  rw [transClientOut_eq hp hv]
  split
  · rename_i hk
    exact connectOne_dialed h hk
  · exact h

theorem Kept.process {created : Bool} {refused : List Nat} {msg : TcpConnectorMsg} {rest : List TcpConnectorMsg}
    (h : Kept s) (ho : Ordered fd s) (hv : Valid fd connType s) (ht : s.tmpList = msg :: rest)
    (hm : s.MeetsSupervision fd (.process created refused)) :
    Kept ((s.pop msg rest).consum fd connType created refused msg) := by
  have hg : Grows (s.pop msg rest) ((s.pop msg rest).consum fd connType created refused msg) := consum_grows ..
  obtain ⟨hr, hm⟩ := hm
  have hm := hm msg (by simp [ht])
  have hpeers : ∀ p, (s.pop msg rest).Configured p ↔ ∃ x ∈ (s.pop msg rest).mgr.infoVec, x.peer = p := h.peers
  refine h.of_active (fun p => hg.configured p) (fun p => by rw [hg.mgr]; rfl) ?_ fun b hb ha => ?_
  · cases msg with
    | socketIn c error =>
      cases error with
      | false =>
        simp only [consum, onConnection, Bool.false_eq_true, if_false]
        split
        · exact h.dialed
        · split
          · unfold transClientIn
            split <;> exact h.dialed
          · exact h.dialed
      | true => exact connectOne_dialed h.dialed hm
    | socketOut c =>
      rw [consum_socketOut ho ht rfl]
      simp only
      split
      · exact transClientOut_dialed hpeers hv.pop h.dialed c refused
      · exact h.dialed
  · cases msg with
    | socketIn c error =>
      cases error with
      | false => exact active_process ho ht hv ha (by simp) (by simp)
      | true =>
        by_cases hbc : b = c
        · subst hbc
          obtain ⟨hp, hph⟩ := connectOne_active (s.pop (.socketIn b true) rest) (s.connector b) hr
          exact ⟨s.top, hp, .inl hph⟩
        · exact active_process ho ht hv ha (by simp) (by simpa using Ne.symm hbc)
    | socketOut c =>
      by_cases hbc : b = c
      · subst hbc
        have hconf : (s.pop (.socketOut b) rest).Configured ((s.pop (.socketOut b) rest).connector b).peer := hb
        rw [consum_socketOut ho ht rfl, if_pos (hm hb), transClientOut_eq hpeers hv.pop, if_pos hconf]
        obtain ⟨hp, hph⟩ := connectOne_active (s.pop (.socketOut b) rest) (s.connector b) hr
        exact ⟨s.top, hp, .inl hph⟩
      · exact active_process ho ht hv ha (by simpa using Ne.symm hbc) (by simp)

theorem Kept.step {e : Event} (h : Kept s) (ho : Ordered fd s) (hv : Valid fd connType s) (hm : s.MeetsSupervision fd e)
    (hst : s.step fd connType e = some s') : Kept s' := by
  cases stepped hst with
  | reload => exact h.reload ho hv hm
  | onConnected c =>
    refine h.setPhase (c := c) rfl fun _ => .inr (.inl ?_)
    exact congrArg TcpConnector.phase (setPhase_self s c .opened)
  | onConnectFailed c =>
    exact h.setPhase (c := c) rfl fun _ => .inr (.inr (.inr (by simp [queued, push])))
  | connectThrows c =>
    have hs : s.setPhase c .lost = { s.setPhase c .lost with tcpConnectorMsgList := s.tcpConnectorMsgList ++ [] } := by
      simp [State.setPhase]
    exact h.setPhase hs fun hc => absurd hc hm
  | closesocket c hp =>
    have hs : s.setPhase c .closed = { s.setPhase c .closed with tcpConnectorMsgList := s.tcpConnectorMsgList ++ [] } := by
      simp [State.setPhase]
    refine h.setPhase hs fun _ => .inr (.inr (.inl ⟨?_, ?_⟩))
    · exact congrArg TcpConnector.phase (setPhase_self s c .closed)
    · intro hout
      have hp' := ho.outs c (by rw [pushed_eq]; exact List.mem_append_left _ hout)
      rw [hp] at hp'
      cases hp'
  | onDisconnected c =>
    refine h.of_active (fun _ => Iff.rfl) (fun _ => Iff.rfl) h.dialed fun b _ hb => ?_
    refine ⟨b, rfl, hb.congr rfl id fun hq => ?_⟩
    show _ ∈ s.tmpList ++ (s.tcpConnectorMsgList ++ _)
    rw [← List.append_assoc]
    exact List.mem_append_left _ hq
  | swap ht =>
    refine h.of_active (fun _ => Iff.rfl) (fun _ => Iff.rfl) h.dialed fun b _ hb => ?_
    refine ⟨b, rfl, hb.congr rfl id fun hq => ?_⟩
    simpa [queued, ht] using hq
  | process created refused msg rest ht => exact h.process ho hv ht hm
  | registered c =>
    refine h.of_active (fun _ => Iff.rfl) (fun p => ?_) h.dialed fun b _ hb => ⟨b, rfl, hb.congr rfl id id⟩
    have hvec : (s.login fd c).mgr.infoVec =
        s.mgr.infoVec.map fun x => if x.peer = (s.connector c).peer then { x with fd := key fd c } else x :=
      loginVec_eq_map s.mgr.sorted
    have hpeer : ∀ x : PeerInfo,
        (if x.peer = (s.connector c).peer then { x with fd := key fd c } else x).peer = x.peer := by
      intro x
      split <;> rfl
    rw [hvec]
    simp only [List.mem_map, exists_exists_and_eq_and, hpeer]

abbrev SupervisionRun (fd : Nat → Nat) (connType : Int) (file : String) (selfServerZone : Int32) :
    List Event → State → Prop :=
  Runs.Run (fun s e s' => s.step fd connType e = some s') (fun _ s e => s.MeetsSupervision fd e)
    (init connType file selfServerZone)

/-- In every run whose steps meet the condition, no configured peer is ever left out and no other is ever called. -/
theorem supervised_of_run {file : String} {selfServerZone : Int32} {t : List Event} {s : State}
    (h : SupervisionRun fd Enum_ConnType_Router file selfServerZone t s) : Supervised s := by
  have hk : Ordered fd s ∧ Kept s := by
    refine h.invariant (fun _ s => Ordered fd s ∧ Kept s) ?_ ?_
    · refine ⟨⟨.nil, rfl, by simp [init, pushed], by simp [init, pushed], by simp [init, pushed]⟩, ⟨⟨?_, ?_⟩, ?_⟩⟩
      · intro p hp
        obtain ⟨i, hi, -⟩ := hp
        cases hi
      · simp [init, PeerMgr.init]
      · simp [init, Configured, PeerMgr.init]
    · intro t s e s' hr hi hm hst
      have hv := Valid.of_run hr
      exact ⟨hi.1.step hv hm hst, hi.2.step hi.1 hv hm hst⟩
  exact hk.2.toSupervised

/-- The first attempt fails, the second is made and goes, and the third is begun. -/
def attempts : List Event :=
  [.reload (some [routerA]) [], .onConnectFailed 0, .swap, .process true [], .onConnected 1, .swap, .process true [],
    .closesocket 1, .onDisconnected 1, .swap, .process true []]

theorem supervised_of_run_attempts : ∃ s, SupervisionRun (fun c => c + 5) Enum_ConnType_Router "routers" 1 attempts s ∧
    s.top = 3 ∧ Supervised s := by
  have h : (Runs.replay (fun s e => if s.MeetsSupervision (fun c => c + 5) e then
      s.step (fun c => c + 5) Enum_ConnType_Router e else none) (init Enum_ConnType_Router "routers" 1) attempts).map
        (fun s => s.top) = some 3 := by decide +kernel
  obtain ⟨s, hs, htop⟩ := Option.map_eq_some_iff.mp h
  exact ⟨s, .of_replay_meets hs, htop, supervised_of_run (.of_replay_meets hs)⟩

/-- An attempt that fails at once is not heard of again, and one that fails after its peer has been removed from the
configuration is followed by another. -/
theorem attempt_is_lost :
    (∃ s, Run (fun c => c + 5) Enum_ConnType_Router "routers" 1 [.reload (some [routerA]) [0]] s ∧
      s.Configured routerA.peer ∧ ¬ ∃ c, (s.connector c).peer = routerA.peer ∧ s.Active c) ∧
    ∃ s, Run (fun c => c + 5) Enum_ConnType_Router "routers" 1
      [.reload (some [routerA]) [], .onConnectFailed 0, .reload (some []) [], .swap, .process true []] s ∧
      (routerA.peer, false) ∈ s.dials := by
  constructor
  · have h : (Runs.replay (step (fun c => c + 5) Enum_ConnType_Router) (init Enum_ConnType_Router "routers" 1)
        [.reload (some [routerA]) [0]]).map
          (fun s => (decide (s.Configured routerA.peer), s.top, (s.connector 0).phase, s.queued)) =
            some (true, 1, .lost, []) := by decide +kernel
    obtain ⟨s, hs, he⟩ := Option.map_eq_some_iff.mp h
    simp only [Prod.mk.injEq, decide_eq_true_eq] at he
    obtain ⟨hconf, htop, hlost, hqueued⟩ := he
    have hrun := Runs.Run.of_replay hs
    have hall : ∀ c, (s.connector c).phase = .lost := by
      intro c
      cases c with
      | zero => exact hlost
      | succ c => exact (Valid.of_run hrun).fresh _ (by omega)
    refine ⟨s, hrun, hconf, ?_⟩
    rintro ⟨c, -, ha⟩
    simp [Active, hall c, hqueued] at ha
  · have h : (Runs.replay (step (fun c => c + 5) Enum_ConnType_Router) (init Enum_ConnType_Router "routers" 1)
        [.reload (some [routerA]) [], .onConnectFailed 0, .reload (some []) [], .swap, .process true []]).map
          (fun s => decide ((routerA.peer, false) ∈ s.dials)) = some true := by decide +kernel
    obtain ⟨s, hs, he⟩ := Option.map_eq_some_iff.mp h
    exact ⟨s, .of_replay hs, of_decide_eq_true he⟩

end State

end GlobalServer.PeerConns
