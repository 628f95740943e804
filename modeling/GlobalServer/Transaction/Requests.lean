import GlobalServer.Transaction.Ids
import GlobalServer.Transaction.Frames

/-!
# Waits, and the requests they are for

A handler comes to stand in `Wait` by an act of its own, and stays there as
it is until it is set going. While it waits for a query, that query's request
carries the id of its transaction.
-/

namespace GlobalServer

open Schedule (Runs Stops)

/-- The query that is waited for. -/
def WaitKind.req : WaitKind → Option Nat
  | .mysql q _ => some q
  | .redis q => some q
  | _ => none

namespace App

/-- The handler of `p` on the coroutine `id` goes into `Wait` by `act`. -/
structure Suspends (a a' : App) (id p : Nat) (kind : WaitKind) (calls : List Call) (act : Act)
    (now interval : Int) : Prop where
  current : a.schedule.curco = some id
  code : a.schedule.task id = some ⟨p, .code calls⟩
  stops : Stops a.schedule a'.schedule id (some ⟨p, .wait kind calls⟩)
  asks : ∃ b, Asks a p act b now interval kind ∧ a' = (b.setPool a'.timerPool).setSchedule a'.schedule
  timer : ∃ tid, a.timerPool.addTimer now interval (a.trans p).transId = .ok (a'.timerPool, tid)

section
variable {a a' : App} {e : Event}

theorem wait_back (he : Effect a e a') {id p : Nat} {kind : WaitKind} {calls : List Call}
    (hk : a'.schedule.task id = some ⟨p, .wait kind calls⟩) :
    a.schedule.task id = some ⟨p, .wait kind calls⟩ ∨
      ∃ act now interval, e = .co p act ∧ Suspends a a' id p kind calls act now interval := by
  have of_runs : ∀ {s : Schedule Task} {i : Nat} {k : Task}, Runs a.schedule s i k → a'.schedule = s →
      (k = ⟨p, .wait kind calls⟩ → a.schedule.task i = some k) → a.schedule.task id = some ⟨p, .wait kind calls⟩ := by
    intro s i k hr hs hsame
    rw [hs, hr.task] at hk
    by_cases hi : id = i
    · subst hi
      obtain rfl : k = ⟨p, .wait kind calls⟩ := by simpa using hk
      exact hsame rfl
    · rwa [Function.update_of_ne hi] at hk
  have framed : ∀ (b : App) {fd : Int} {frame : AppHeadFrame} {m : Nat}
    {target : Option Nat}, b.schedule = a.schedule →
      Framed b fd frame m target a' → a.schedule.task id = some ⟨p, .wait kind calls⟩ := by
    intro b fd frame m target hb hf
    cases hf with
    | none hf => rwa [hb] at hk
    | reject hd hp hr => rwa [hb] at hk
    | store hc hd hp hr => rw [← hb]; exact hk
    | resume hc hd hp hr hw hs =>
      rw [hb] at hw hs
      exact of_runs hs rfl fun _ => hw
    | start hc hd hn hid hs =>
      rw [hb] at hs
      exact of_runs hs (by rw [insertActive_schedule]; rfl) nofun
    | lost hc hd hn =>
      rw [← hb]
      rwa [hn.constructed.eq] at hk
  cases he with
  | fire hc hu hn hp hw hs => exact Or.inl (of_runs hs rfl fun _ => hw)
  | dispatch hi hf => exact Or.inl (framed ((a.setLoop (.frame a.msgTop)).takeMsg _) rfl hf)
  | nested hc hw hf => exact Or.inl (framed (a.takeMsg _) rfl hf)
  | mysqlRsp hi hq hp hw hs => exact Or.inl (of_runs hs rfl fun _ => hw)
  | redisRsp hi hq hp hw hs => exact Or.inl (of_runs hs rfl fun _ => hw)
  | parse hc hw hm hsh hs => exact Or.inl (of_runs hs rfl nofun)
  | woke hc hw hr hwk hs => exact Or.inl (of_runs hs rfl fun h => by cases hwk <;> cases h)
  | rowNext hc hw hn hs => exact Or.inl (of_runs hs rfl nofun)
  | rowEnd hc hw hn hsh hs => exact Or.inl (of_runs hs rfl nofun)
  | @exit q i pc act b s hc hw he hb hs =>
    have hk : s.task id = _ := hk
    rw [hs.task] at hk
    by_cases hi : id = i
    · subst hi; simp at hk
    · rw [Function.update_of_ne hi] at hk
      exact Or.inl hk
  | @suspend q i tid calls' act b now interval kind' pool s hc hw ha hp hs =>
    have hk : s.task id = _ := hk
    rw [hs.task] at hk
    by_cases hi : id = i
    · subst hi
      have hk : some (⟨q, .wait kind' calls'⟩ : Task) = some ⟨p, .wait kind calls⟩ := by simpa using hk
      cases hk
      exact Or.inr ⟨act, now, interval, rfl, hc, hw, hs, ⟨b, ha, rfl⟩, tid, hp⟩
    · rw [Function.update_of_ne hi] at hk
      exact Or.inl hk
  | _ => exact Or.inl hk

theorem transId_effect (h : Sound a) (he : Effect a e a') {p : Nat} (hp : a.Running p) :
    (a'.trans p).transId = (a.trans p).transId := by
  have hch := trans_effect h he p
  generalize a'.trans p = t at hch ⊢
  cases hch with
  | made hf ht hd hn hcon htype => exact absurd hp hn
  | woke hw => cases hw <;> rfl
  | _ => rfl

/-! ## Requests -/

/-- The request that is waited for is not answered yet, and it carries the id `i`. -/
def Requested (a : App) (kind : WaitKind) (i : UInt32) : Prop :=
  match kind with
  | .mysql q _ => (q, i) ∈ a.mysqlReqs
  | .redis q => (q, i) ∈ a.redisReqs
  | _ => False

/-- A request carries the id of the transaction that waits for it. -/
structure RequestsOk (a : App) : Prop where
  top : ∀ kind q i, kind.req = some q → a.Requested kind i → q < a.reqTop
  wait : ∀ id p kind calls q, a.schedule.task id = some ⟨p, .wait kind calls⟩ → kind.req = some q →
    q < a.reqTop ∧ ∀ i, a.Requested kind i → i = (a.trans p).transId

/-- A query is asked for. -/
def Event.Queries (e : Event) (p : Nat) : Prop :=
  (∃ fields now, e = .co p (.mysqlQuery fields now)) ∨ ∃ now, e = .co p (.redisExecute now)

theorem reqTop_effect (he : Effect a e a') : a.reqTop ≤ a'.reqTop := by
  cases he with
  | dispatch hi hf => obtain ⟨_, _, _, _, _, _, rfl⟩ := hf.rest; exact Nat.le_refl _
  | nested hc hk hf => obtain ⟨_, _, _, _, _, _, rfl⟩ := hf.rest; exact Nat.le_refl _
  | suspend hc hk ha hp hs => cases ha <;> first | exact Nat.le_refl _ | exact Nat.le_succ _
  | _ => exact Nat.le_refl _

theorem requested_back (he : Effect a e a') {kind : WaitKind} {i : UInt32} (hr : a'.Requested kind i) :
    a.Requested kind i ∨ ∃ p, Event.Queries e p ∧ kind.req = some a.reqTop ∧ i = (a.trans p).transId ∧
    a'.reqTop = a.reqTop + 1 := by
  cases he with
  | dispatch hi hf => obtain ⟨_, _, _, _, _, _, rfl⟩ := hf.rest; exact Or.inl hr
  | nested hc hk hf => obtain ⟨_, _, _, _, _, _, rfl⟩ := hf.rest; exact Or.inl hr
  | mysqlNone hi hq hp =>
    cases kind with
    | mysql q fields => exact Or.inl (List.mem_of_mem_erase hr)
    | _ => exact Or.inl hr
  | mysqlRsp hi hq hp hk hs =>
    cases kind with
    | mysql q fields => exact Or.inl (List.mem_of_mem_erase hr)
    | _ => exact Or.inl hr
  | redisNone hi hq hp =>
    cases kind with
    | redis q => exact Or.inl (List.mem_of_mem_erase hr)
    | _ => exact Or.inl hr
  | redisRsp hi hq hp hk hs =>
    cases kind with
    | redis q => exact Or.inl (List.mem_of_mem_erase hr)
    | _ => exact Or.inl hr
  | suspend hc hk ha hp hs =>
    cases ha with
    | mysqlQuery =>
      cases kind with
      | mysql q fields =>
        rcases List.mem_cons.mp hr with hr | hr
        · cases hr
          exact Or.inr ⟨_, Or.inl ⟨_, _, rfl⟩, rfl, rfl, rfl⟩
        · exact Or.inl hr
      | _ => exact Or.inl hr
    | redisExecute =>
      cases kind with
      | redis q =>
        rcases List.mem_cons.mp hr with hr | hr
        · cases hr
          exact Or.inr ⟨_, Or.inr ⟨_, rfl⟩, rfl, rfl, rfl⟩
        · exact Or.inl hr
      | _ => exact Or.inl hr
    | _ => exact Or.inl hr
  | exit hc hk he hb hs => exact Or.inl hr
  | _ => exact Or.inl hr

theorem Suspends.req {id p : Nat} {kind : WaitKind} {calls : List Call} {act : Act} {now interval : Int}
    (hs : Suspends a a' id p kind calls act now interval) {q : Nat} (hq : kind.req = some q) :
    q = a.reqTop ∧ a'.reqTop = a.reqTop + 1 := by
  obtain ⟨b, ha, he⟩ := hs.asks
  rw [he]
  cases ha with
  | mysqlQuery => exact ⟨(Option.some.inj hq).symm, rfl⟩
  | redisExecute => exact ⟨(Option.some.inj hq).symm, rfl⟩
  | _ => cases hq

theorem requestsOk_effect (h : Sound a) (hr : a.RequestsOk) (he : Effect a e a') : a'.RequestsOk := by
  have htop := reqTop_effect he
  refine ⟨?_, ?_⟩
  · intro kind q i hq hi
    rcases requested_back he hi with hi | ⟨p, -, hq', -, htop'⟩
    · exact Nat.lt_of_lt_of_le (hr.top kind q i hq hi) htop
    · rw [hq, Option.some.injEq] at hq'
      omega
  · intro id p kind calls q hk hq
    rcases wait_back he hk with hk | ⟨act, now, interval, rfl, hs⟩
    · obtain ⟨hlt, hids⟩ := hr.wait id p kind calls q hk hq
      refine ⟨Nat.lt_of_lt_of_le hlt htop, fun i hi => ?_⟩
      rw [transId_effect h he ⟨id, _, hk⟩]
      rcases requested_back he hi with hi | ⟨p', -, hq', -, -⟩
      · exact hids i hi
      · rw [hq, Option.some.injEq] at hq'
        omega
    · obtain ⟨rfl, htop'⟩ := hs.req hq
      refine ⟨by omega, fun i hi => ?_⟩
      rw [transId_effect h he ⟨id, _, hs.code⟩]
      rcases requested_back he hi with hi | ⟨p', hq', -, hid, -⟩
      · exact absurd (hr.top kind _ i hq hi) (Nat.lt_irrefl _)
      · rcases hq' with ⟨fields, now', hact⟩ | ⟨now', hact⟩
        · cases hact; exact hid
        · cases hact; exact hid

end

theorem run_requestsOk {C : List Event → App → Event → Prop} {c : Config} {t : List Event} {a : App}
    (h : Run C c t a) :
    a.RequestsOk := by
  refine run_invariant (fun _ a => a.RequestsOk) ⟨?_, ?_⟩ (fun _ _ _ _ hs hr _ he => requestsOk_effect hs hr he) h
  · intro kind q i hq hi
    cases kind <;> simp [Requested, init] at hi
  · intro id p kind calls q hk
    simp [init] at hk

section
variable {a : App}

/-- When ids are not shared, a response that comes while its query is waited for finds the handler in that wait. -/
theorem RequestsOk.own (hr : a.RequestsOk) (h : Sound a) (hm : a.Mapped) (kind : WaitKind) {q : Nat} {i : UInt32}
    (hq : kind.req = some q) (hi : a.Requested kind i) {p : Nat} (hp : a.getTransaction i = some p)
    {id p' id' : Nat} {pc : Pc}
    {calls : List Call} (hw : a.schedule.task id' = some ⟨p', .wait kind calls⟩)
    (hk : a.schedule.task id = some ⟨p, pc⟩) :
    pc = .wait kind calls := by
  obtain ⟨hrun, hid⟩ := (hm.map h i p).mp hp
  have htid : (a.trans p').transId = (a.trans p).transId := by
    rw [hid]
    exact ((hr.wait id' p' kind calls q hw hq).2 i hi).symm
  obtain rfl : p' = p := hm.inj ⟨id', _, hw⟩ hrun htid
  obtain rfl : id' = id := (h.owner id' _ hw).2.1.symm.trans (h.owner id _ hk).2.1
  have := hk.symm.trans hw
  simp only [Option.some.injEq, Task.mk.injEq, true_and] at this
  exact this

end

end App

end GlobalServer
