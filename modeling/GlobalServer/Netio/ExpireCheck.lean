import GlobalServer.Lib.OrderedIndex
import GlobalServer.Netio.TcpBaseSocket

/-!
# Idle connections

The accepted connections are kept in the order of their last messages too. The
check closes idle ones from the front of that order on, and ends at the first
that it does not close.
-/

namespace GlobalServer.ExpireCheck

def M_EXPIRE_CHECK_INTERVAL : Int := 15

def M_EXPIRE_INTERVAL : Int := 30

/-- `ptr` is the socket as it is when the entry is looked at. -/
structure TcpSocketContext where
  fd : Int
  tt : Int
  ptr : TcpBaseSocket
  deriving DecidableEq

namespace TcpSocketContext

def isConnected (e : TcpSocketContext) : Bool := e.ptr.flag = .start

def close (e : TcpSocketContext) : TcpSocketContext := { e with ptr := e.ptr.closeSocket }

def idle (now : Int) (e : TcpSocketContext) : Bool := M_EXPIRE_INTERVAL ≤ now - e.tt

/-- Closed if it is connected and idle. -/
def closeIdle (now : Int) (e : TcpSocketContext) : TcpSocketContext :=
  if e.idle now && e.isConnected then e.close else e

variable {e : TcpSocketContext} {now : Int}

theorem close_fd : e.close.fd = e.fd := rfl

theorem close_tt : e.close.tt = e.tt := rfl

theorem close_isConnected : e.close.isConnected = false := by
  unfold close isConnected TcpBaseSocket.closeSocket
  split
  · rename_i h
    simp [h]
  · cases e.ptr.writing <;> simp

theorem closeIdle_eq_self_iff : e.closeIdle now = e ↔ ¬ (e.idle now ∧ e.isConnected) := by
  unfold closeIdle
  rw [← Bool.and_eq_true]
  split
  · rename_i h
    refine ⟨fun he => ?_, fun hn => absurd h hn⟩
    rw [Bool.and_eq_true, ← he, close_isConnected] at h
    cases h.2
  · rename_i h
    exact ⟨fun _ => h, fun _ => rfl⟩

theorem idle_of_le {e' : TcpSocketContext} (h : e.tt ≤ e'.tt) (hi : e'.idle now) : e.idle now := by
  unfold idle at *
  rw [decide_eq_true_eq] at *
  omega

end TcpSocketContext

open TcpSocketContext

/-- The loop of `CheckTcpSocketExpire` -/
def closeExpired (now : Int) : List TcpSocketContext → List TcpSocketContext
  | [] => []
  | e :: c => if e.idle now && e.isConnected then e.close :: closeExpired now c else e :: c

/-- The entries in the order of `tag_socket_context_active`; the descriptors are different. -/
structure TcpSocketContextContainer where
  entries : List TcpSocketContext
  sorted : OrderedIndex.Sorted tt entries
  nodup : (entries.map fd).Nodup

theorem closeExpired_fd (now : Int) (c : List TcpSocketContext) : (closeExpired now c).map fd = c.map fd := by
  fun_induction closeExpired now c with
  | case1 => rfl
  | case2 e c _ ih => rw [List.map_cons, List.map_cons, ih, close_fd]
  | case3 => rfl

theorem closeExpired_tt (now : Int) (c : List TcpSocketContext) : (closeExpired now c).map tt = c.map tt := by
  fun_induction closeExpired now c with
  | case1 => rfl
  | case2 e c _ ih => rw [List.map_cons, List.map_cons, ih, close_tt]
  | case3 => rfl

namespace TcpSocketContextContainer

/-- `OnConnection`; a descriptor that is there already is not inserted. -/
def onConnection (c : TcpSocketContextContainer) (context : TcpSocketContext) : TcpSocketContextContainer :=
  if h : context.fd ∈ c.entries.map fd then c else
  { entries := OrderedIndex.insert tt context c.entries
    sorted := OrderedIndex.sorted_insert c.sorted
    nodup := (OrderedIndex.perm_insert.map fd).nodup_iff.mpr (List.nodup_cons.mpr ⟨h, c.nodup⟩) }

/-- `FuncModifySocketContext` for a message over `fd` -/
def onData (c : TcpSocketContextContainer) (fd now : Int) : TcpSocketContextContainer where
  entries := OrderedIndex.modify tt (fun e => e.fd = fd) (fun e => { e with tt := now }) c.entries
  sorted := OrderedIndex.sorted_modify c.sorted
  nodup := by
    rcases OrderedIndex.modify_eq tt (fun e : TcpSocketContext => e.fd = fd) (fun e => { e with tt := now }) c.entries with
      ⟨-, he⟩ | ⟨a, x, b, hl, -, -, he⟩
    · rw [he]
      exact c.nodup
    · have hn := c.nodup
      rw [hl] at hn
      rw [(List.perm_middle.map TcpSocketContext.fd).nodup_iff] at hn
      rw [he, ((OrderedIndex.perm_changed tt _ a b).map TcpSocketContext.fd).nodup_iff]
      exact hn

def onDisConnection (c : TcpSocketContextContainer) (fd : Int) : TcpSocketContextContainer where
  entries := c.entries.filter fun e => e.fd ≠ fd
  sorted := c.sorted.sublist List.filter_sublist
  nodup := c.nodup.sublist (List.filter_sublist.map _)

/-- `CheckTcpSocketExpire`, with `last_check_time` -/
def checkTcpSocketExpire (c : TcpSocketContextContainer) (lastCheckTime now : Int) : Int × TcpSocketContextContainer :=
  if now - lastCheckTime < M_EXPIRE_CHECK_INTERVAL then (lastCheckTime, c) else
  (now,
    { entries := closeExpired now c.entries
      sorted := by
        have h := List.pairwise_map.mpr c.sorted
        rw [← closeExpired_tt now] at h
        exact List.pairwise_map.mp h
      nodup := by
        rw [closeExpired_fd]
        exact c.nodup })

/-- Before a connected socket that is idle there are connected ones only. -/
def Meets (c : TcpSocketContextContainer) (now : Int) : Prop :=
  c.entries.Pairwise fun e e' => e'.idle now → e'.isConnected → e.isConnected

end TcpSocketContextContainer

theorem map_closeIdle_iff {now : Int} {c : List TcpSocketContext} :
    c = c.map (closeIdle now) ↔ ∀ e ∈ c, ¬ (e.idle now ∧ e.isConnected) := by
  conv_lhs => lhs; rw [← List.map_id c]
  rw [List.map_inj_left]
  exact forall₂_congr fun _ _ => eq_comm.trans closeIdle_eq_self_iff

theorem closeExpired_eq_iff {now : Int} {c : List TcpSocketContext} (hs : OrderedIndex.Sorted tt c) :
    closeExpired now c = c.map (closeIdle now) ↔
      c.Pairwise fun e e' => e'.idle now → e'.isConnected → e.isConnected := by
  induction c with
  | nil => exact ⟨fun _ => List.Pairwise.nil, fun _ => rfl⟩
  | cons e c ih =>
    obtain ⟨hle, hs⟩ := List.pairwise_cons.mp hs
    rw [List.pairwise_cons, List.map_cons, closeExpired, closeIdle]
    by_cases h : (e.idle now && e.isConnected) = true
    · rw [if_pos h, if_pos h, List.cons_inj_right, ih hs]
      rw [Bool.and_eq_true] at h
      exact ⟨fun hp => ⟨fun _ _ _ _ => h.2, hp⟩, fun hp => hp.2⟩
    · -- the loop ends here, and what is behind is right as it is if nothing there is to be closed
      rw [if_neg h, if_neg h, List.cons_inj_right, map_closeIdle_iff]
      rw [Bool.and_eq_true] at h
      constructor
      · intro hnone
        refine ⟨fun e' he' hi hc => absurd ⟨hi, hc⟩ (hnone e' he'), List.pairwise_of_forall_mem_list ?_⟩
        exact fun _ _ e' he' hi hc => absurd ⟨hi, hc⟩ (hnone e' he')
      · rintro ⟨hfirst, -⟩ e' he' ⟨hi, hc⟩
        exact h ⟨idle_of_le (hle e' he') hi, hfirst e' he' hi hc⟩

namespace TcpSocketContextContainer

/-- Whenever the check runs it closes the sockets that are connected and idle, and no others, exactly if there are
connected ones only before each of these. -/
theorem idle_closed_iff (c : TcpSocketContextContainer) {lastCheckTime now : Int}
    (h : M_EXPIRE_CHECK_INTERVAL ≤ now - lastCheckTime) :
    (c.checkTcpSocketExpire lastCheckTime now).2.entries = c.entries.map (closeIdle now) ↔ c.Meets now := by
  unfold checkTcpSocketExpire
  rw [if_neg (Int.not_lt.mpr h)]
  exact closeExpired_eq_iff c.sorted

/-- Two idle sockets, of which the first is closing and still has something to write. -/
def behindClosing : TcpSocketContextContainer where
  entries := [⟨1, 0, { TcpBaseSocket.init with flag := .stop, writing := true }⟩, ⟨2, 1, TcpBaseSocket.init⟩]
  sorted := by simp [OrderedIndex.Sorted]
  nodup := by simp

theorem behindClosing_not_closed :
    (behindClosing.checkTcpSocketExpire 0 100).2.entries ≠ behindClosing.entries.map (closeIdle 100) := by decide

/-- Where the first of them is connected too, both are closed. -/
theorem both_idle_closed : ((behindClosing.onDisConnection 1).onConnection ⟨3, 0, TcpBaseSocket.init⟩
    |>.checkTcpSocketExpire 0 100).2.entries.map isConnected = [false, false] := by
  rw [(idle_closed_iff _ (by decide)).mpr (by unfold Meets; decide)]
  decide

end TcpSocketContextContainer

end GlobalServer.ExpireCheck
