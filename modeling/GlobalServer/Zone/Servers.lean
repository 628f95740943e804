import GlobalServer.Zone.Zone
import GlobalServer.Transaction.Reply

/-!
# What a server says of itself

A server sends every message in its own name: the type and the instance in a
frame are those that it was set up with, and so are those that it registers
with. A message that asks has the id of its transaction and no other; one that
names a transaction to be told is the answer to a frame of that transaction.
-/

namespace GlobalServer

namespace App

/-- `RouterMgr::Init` was told what `ProcessFrame` is told. -/
structure Config.Agrees (c : Config) : Prop where
  serverType : UInt32.ofInt c.router.selfServerType = c.serverType
  instanceId : UInt32.ofInt c.router.selfInstanceId = c.instanceId

/-- The application is who its configuration says. -/
structure Named (c : Config) (a : App) : Prop where
  serverType : a.serverType = c.serverType
  instanceId : a.instanceId = c.instanceId
  selfServerType : a.router.selfServerType = c.router.selfServerType
  selfInstanceId : a.router.selfInstanceId = c.router.selfInstanceId

section
variable {c : Config} {a a' : App} {e : Event}

theorem named_effect (h : Named c a) (he : Effect a e a') : Named c a' := by
  obtain ⟨h1, h2, h3, h4⟩ := h
  cases he with
  | dispatch hi hf => obtain ⟨_, _, _, _, _, _, rfl⟩ := hf.rest; exact ⟨h1, h2, h3, h4⟩
  | nested hc hk hf => obtain ⟨_, _, _, _, _, _, rfl⟩ := hf.rest; exact ⟨h1, h2, h3, h4⟩
  | suspend hc hk ha hp hs => cases ha <;> exact ⟨h1, h2, h3, h4⟩
  | exit hc hk he hb hs => cases he <;> exact ⟨h1, h2, h3, h4⟩
  | _ => exact ⟨h1, h2, h3, h4⟩

/-- What the running transactions have been told of the application. -/
def Told (c : Config) (a : App) : Prop :=
  ∀ p, a.Running p → (a.trans p).selfSvrType = c.serverType ∧ (a.trans p).selfInstId = c.instanceId

theorem told_effect (h : Sound a) (hn : Named c a) (ht : Told c a) (he : Effect a e a') : Told c a' := by
  intro p hp
  have hch := trans_effect h he p
  rcases running_back h he hp with hr | ⟨hnr, fd, frame, rfl, hd⟩
  · obtain ⟨h1, h2⟩ := ht p hr
    generalize a'.trans p = t at hch ⊢
    cases hch with
    | made hf ht' hd hnr hcon htype => exact absurd hr hnr
    | woke hw => cases hw <;> exact ⟨h1, h2⟩
    | _ => exact ⟨h1, h2⟩
  · generalize a'.trans p = t at hch ⊢
    cases hch with
    | same hne hr => exact absurd rfl hne
    | made hf ht' hd' hnr' hcon htype => exact ⟨hn.serverType, hn.instanceId⟩
    | answered hf ht' hd' hp' hr =>
      obtain rfl := Option.some.inj hf
      simp [hd] at hd'

end

section
variable {C : List Event → App → Event → Prop} {c : Config} {t : List Event} {a a' : App} {e : Event}

theorem run_named (h : Run C c t a) : Named c a :=
  run_invariant (fun _ a => Named c a) ⟨rfl, rfl, rfl, rfl⟩ (fun _ _ _ _ _ hn _ he => named_effect hn he) h

theorem run_told (h : Run C c t a) : Told c a := by
  have hb := run_invariant (fun _ a => Named c a ∧ Told c a) ⟨⟨rfl, rfl, rfl, rfl⟩, ?_⟩ ?_ h
  · exact hb.2
  · intro p hp
    obtain ⟨id, pc, hk⟩ := hp
    simp [init] at hk
  · intro t a e a' hs hi _ he
    exact ⟨named_effect hi.1 he, told_effect hs hi.1 hi.2 he⟩

/-- A message in the name of the server `c`. -/
structure InNameOf (c : Config) (frame : AppHeadFrame) : Prop where
  srcSvrType : frame.srcSvrType = c.serverType
  srcInstId : frame.srcInstId = c.instanceId

theorem sendMsg_inNameOf (hn : Named c a) (hc : c.Agrees) {msg : Msg} {out : Int × AppHeadFrame}
    (ho : a.router.sendMsg msg = some out) : InNameOf c out.2 := by
  rw [RouterMgr.sendMsg_frame ho]
  exact ⟨by rw [← hc.serverType, ← hn.selfServerType]; rfl, by rw [← hc.instanceId, ← hn.selfInstanceId]; rfl⟩

/-- The handler of a running transaction has sent `out` with a message that is no answer. -/
def Asked (a : App) (out : Int × AppHeadFrame) : Prop :=
  ∃ p msg, a.Running p ∧ msg.dstTransId = 0 ∧ msg.srcTransId = (a.trans p).transId ∧ a.router.sendMsg msg = some out

theorem asked_of_act {p : Nat} {k : Task} (hk : a.running = some k) (hp : k.trans = p) {act : Act}
    (hst : a.act p k.pc act = some a') {out : Int × AppHeadFrame} (ho : (Event.co p act).out = some out)
    (he : (Event.co p act).ends = false) : a.Asked out := by
  obtain ⟨q, pc⟩ := k
  obtain rfl : q = p := hp
  have hrun : a.Running q := running_Running hk
  cases act with
  | sendMsg cmd svrType instId len r out' =>
    obtain rfl : out' = some out := ho
    cases pc with
    | code calls =>
      simp only [App.act] at hst
      obtain ⟨⟨-, hs⟩, -⟩ := Option.ite_none_right_eq_some.mp hst
      have hs : (a.setReqRandom q r).router.sendMsg (request ((a.setReqRandom q r).trans q) cmd svrType instId len) =
          some out := (hs.resolve_left (by simp)).symm
      exact ⟨q, _, hrun, rfl, by simp [request, setReqRandom], hs⟩
    | start => cases hst
    | wait kind calls => cases hst
  | callMsg cmd svrType instId len r out' now =>
    obtain rfl : out' = out := Option.some.inj ho
    cases pc with
    | code calls =>
      simp only [App.act] at hst
      obtain ⟨⟨-, hs⟩, -⟩ := Option.ite_none_right_eq_some.mp hst
      exact ⟨q, _, hrun, rfl, by simp [request, setReqRandom], hs⟩
    | start => cases hst
    | wait kind calls => cases hst
  | onRequest ret seen len out' => cases he
  | _ => cases ho

theorem out_cases (h : Sound a) (hst : a.step e = some a') {out : Int × AppHeadFrame} (ho : e.out = some out) :
    a.Asked out ∨
      ∃ p cur len, a.Running p ∧ e.Responds p out.2 ∧ a.router.sendMsg (respond (a.trans p) cur len) = some out := by
  cases e with
  | co p act =>
    by_cases he : (Event.co p act).ends = true
    · cases act with
      | onRequest ret seen len out' =>
        obtain rfl : out' = some out := ho
        obtain ⟨hr, m, cur, -, -, hs⟩ := reply_effect h hst
        exact .inr ⟨p, cur, len, hr, ⟨ret, seen, len, out.1, rfl⟩, hs⟩
      | _ => cases he
    · cases hk : a.running with
      | none => simp [step, hk] at hst
      | some k =>
        simp only [step, hk] at hst
        obtain ⟨hp, hst⟩ := Option.ite_none_right_eq_some.mp hst
        exact .inl (asked_of_act hk hp hst ho (by simpa using he))
  | _ => cases ho

theorem out_inNameOf (h : Sound a) (hn : Named c a) (hc : c.Agrees) (hst : a.step e = some a') {out : Int × AppHeadFrame}
    (ho : e.out = some out) : InNameOf c out.2 := by
  rcases out_cases h hst ho with ⟨p, msg, -, -, -, hs⟩ | ⟨p, cur, len, -, -, hs⟩
  · exact sendMsg_inNameOf hn hc hs
  · exact sendMsg_inNameOf hn hc hs

end

end App

end GlobalServer
