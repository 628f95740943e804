import GlobalServer.Transaction.Requests

/-!
# The responses of the databases

The loop deletes a response when its dispatch is over. `MysqlQuery` and
`RedisExecute` read it through a pointer in the transaction, which they set
back to null; `RedisExecute` does not when the response is an error, and a
response that comes when its own wait is over is read by no one. Unless that
happens, or a callback waits, a pointer is set only while its own response is
in dispatch.
-/

namespace GlobalServer

open Schedule (Runs Stops)

/-- The act ends in `Wait`. -/
def Act.suspends : Act → Bool
  | .callMsg _ _ _ _ _ _ _ => true
  | .wait _ _ => true
  | .mysqlQuery _ _ => true
  | .redisExecute _ => true
  | _ => false

namespace App

/-- Some handler waits for the query `q`. -/
def WaitsMysql (a : App) (q : Nat) : Prop := ∃ id p fields calls, a.schedule.task id = some ⟨p,
    .wait (.mysql q fields) calls⟩

def WaitsRedis (a : App) (q : Nat) : Prop := ∃ id p calls, a.schedule.task id = some ⟨p, .wait (.redis q) calls⟩

/-- No id is given that is in use, a response finds its own wait or no transaction at all, a Redis response that
finds one is no error, and no callback waits. -/
structure ResponsesOk (a : App) (e : Event) : Prop where
  id : ∀ fd frame p, e = .dispatch fd frame (some p) → frame.dstTransId = 0 →
    a.getTransaction a.transIdGenerator = none
  mysql : ∀ q rsp p, e = .mysqlRsp q rsp (some p) → a.WaitsMysql q
  redis : ∀ q rsp p, e = .redisRsp q rsp (some p) → a.WaitsRedis q ∧ rsp.errCode = 0
  callback : ∀ p act calls, e = .co p act → act.suspends = true → a.running = some ⟨p, .code calls⟩ → calls = []

/-- Where the running handler reads the response to `q`. -/
def ReadsMysql (k : Task) (p q : Nat) : Prop :=
  (∃ fields, k = ⟨p, .wait (.mysql q fields) []⟩) ∨ ∃ n, k = ⟨p, .code [⟨q, n⟩]⟩

/-- The pointers are set only to the response in dispatch, which is that to the query that is being read. -/
structure RspOk (a : App) : Prop where
  calls : ∀ id p kind calls, a.schedule.task id = some ⟨p, .wait kind calls⟩ → calls = []
  code : ∀ p calls, a.running = some ⟨p, .code calls⟩ → calls ≠ [] → ∃ q n, calls = [⟨q, n⟩] ∧
    (a.trans p).mysqlRsp = some q
  mysql : ∀ p q, (a.trans p).mysqlRsp = some q →
    (∃ rsp, a.loop = .mysql q rsp) ∧ ∃ k, a.running = some k ∧ ReadsMysql k p q
  redis : ∀ p q, (a.trans p).redisRsp = some q → ∃ rsp, a.loop = .redis q rsp ∧ rsp.errCode = 0 ∧
    a.running = some ⟨p, .wait (.redis q) []⟩

section
variable {a a' : App} {e : Event}

theorem mysqlRsp_back (h : Sound a) (he : Effect a e a') {p q : Nat} (hq : (a'.trans p).mysqlRsp = some q) :
    (a.trans p).mysqlRsp = some q ∨ ∃ rsp, e = .mysqlRsp q rsp (some p) := by
  have hch := trans_effect h he p
  generalize a'.trans p = t at hch hq
  cases hch with
  | made hf ht hd hn hcon htype =>
    have := (construct_fields hcon).2.2.2.2.1
    simp [started, this] at hq
  | mysql => cases hq; exact Or.inr ⟨_, rfl⟩
  | row => cases hq
  | woke hw => cases hw <;> first | exact Or.inl hq | cases hq
  | _ => exact Or.inl hq

theorem redisRsp_back (h : Sound a) (he : Effect a e a') {p q : Nat} (hq : (a'.trans p).redisRsp = some q) :
    (a.trans p).redisRsp = some q ∨ ∃ rsp, e = .redisRsp q rsp (some p) := by
  have hch := trans_effect h he p
  generalize a'.trans p = t at hch hq
  cases hch with
  | made hf ht hd hn hcon htype =>
    have := (construct_fields hcon).2.2.2.2.2
    simp [started, this] at hq
  | redis => cases hq; exact Or.inr ⟨_, rfl⟩
  | woke hw => cases hw <;> first | exact Or.inl hq | cases hq
  | _ => exact Or.inl hq

/-- What becomes of a handler in its code, which is in `calls`: it waits, returns, or goes on to the next row. -/
inductive Coding (a : App) (e : Event) (a' : App) (p : Nat) : List Call → Prop
  | stays {calls : List Call} (hrun : a'.running = a.running) (hq : (a'.trans p).mysqlRsp = (a.trans p).mysqlRsp) :
      Coding a e a' p calls
  | waits {calls : List Call} {act : Act} (he : e = .co p act) (hs : act.suspends = true) (hrun : a'.running = none) :
      Coding a e a' p calls
  | ends (hrun : a'.running = none) : Coding a e a' p []
  | next {call : Call} {calls : List Call} {n : Nat} (hrun : a'.running = some ⟨p, .code (⟨call.rsp, n⟩ :: calls)⟩)
      (hq : (a'.trans p).mysqlRsp = (a.trans p).mysqlRsp) : Coding a e a' p (call :: calls)
  | last {call : Call} {calls : List Call} (hrun : a'.running = some ⟨p, .code calls⟩)
      (hq : (a'.trans p).mysqlRsp = none) :
      Coding a e a' p (call :: calls)

theorem mysqlRsp_nested (h : Sound a) {q : Nat} {fd : Int} {frame : AppHeadFrame} {target : Option Nat}
    (he : Effect a (.co q (.processFrame fd frame target)) a') {p : Nat} (hp : a.Running p) :
    (a'.trans p).mysqlRsp = (a.trans p).mysqlRsp := by
  have hch := trans_effect h he p
  generalize a'.trans p = t at hch
  cases hch with
  | made hf ht hd hn hcon htype => exact absurd hp hn
  | sent hr hrand => cases hr
  | _ => rfl

theorem coding_effect (h : Sound a) (he : Effect a e a') {p : Nat} {calls : List Call}
    (hk : a.running = some ⟨p, .code calls⟩) : Coding a e a' p calls := by
  have idle : ∀ {P : Prop}, a.running = none → P := fun hn => by simp [hn] at hk
  have same : ∀ {id : Nat} {k : Task}, a.schedule.curco = some id → a.schedule.task id = some k →
    k = ⟨p, .code calls⟩ :=
    fun h1 h2 => Option.some.inj ((running_of_task h1 h2).symm.trans hk)
  cases he with
  | update hi => exact idle (running_of_main (idle_spec.mp hi).1)
  | tick h1 hu hn ht => exact idle (running_of_main h1)
  | fire h1 hu hn hp hw hs => exact idle (running_of_main h1)
  | dispatch hi hf => exact idle (running_of_main (idle_spec.mp hi).1)
  | mysqlNone hi hreq hp => exact idle (running_of_main (idle_spec.mp hi).1)
  | mysqlRsp hi hreq hp hw hs => exact idle (running_of_main (idle_spec.mp hi).1)
  | redisNone hi hreq hp => exact idle (running_of_main (idle_spec.mp hi).1)
  | redisRsp hi hreq hp hw hs => exact idle (running_of_main (idle_spec.mp hi).1)
  | dispatched h1 hl => exact idle (running_of_main h1)
  | recycle hl => exact .stays rfl rfl
  | routers => exact .stays rfl rfl
  | curFrame h1 hw hm hsh => exact .stays rfl rfl
  | sendMsg h1 hw hrand =>
    cases same h1 hw
    exact .stays rfl (by simp [setReqRandom])
  | nested h1 hw hf =>
    cases same h1 hw
    exact .stays (running_of_schedule (schedule_of_nested (b := a.takeMsg _) hf (by simp [h1])))
      (mysqlRsp_nested h (.nested h1 hw hf) ⟨_, _, hw⟩)
  | parse h1 hw hm hsh hs => cases same h1 hw
  | woke h1 hw hret hwk hs => cases same h1 hw
  | suspend h1 hw ha hp hs =>
    cases same h1 hw
    exact .waits rfl (by cases ha <;> rfl) (running_of_stops hs rfl)
  | rowNext h1 hw hn hs =>
    cases same h1 hw
    exact .next (running_of_runs hs rfl) rfl
  | rowEnd h1 hw hn hsh hs =>
    cases same h1 hw
    exact .last (running_of_runs hs rfl) (by simp)
  | exit h1 hw hend hb hs =>
    cases same h1 hw
    cases hend <;> exact .ends (running_of_stops hs rfl)

theorem starting_effect (he : Effect a e a') {p : Nat} (hk : a.running = some ⟨p, .start⟩) :
    a'.running = a.running ∨ a'.running = some ⟨p, .code []⟩ ∨ a'.running = none := by
  have idle : ∀ {P : Prop}, a.running = none → P := fun hn => by simp [hn] at hk
  have same : ∀ {id : Nat} {k : Task}, a.schedule.curco = some id → a.schedule.task id = some k → k = ⟨p, .start⟩ :=
    fun h1 h2 => Option.some.inj ((running_of_task h1 h2).symm.trans hk)
  cases he with
  | update hi => exact idle (running_of_main (idle_spec.mp hi).1)
  | tick h1 hu hn ht => exact idle (running_of_main h1)
  | fire h1 hu hn hp hw hs => exact idle (running_of_main h1)
  | dispatch hi hf => exact idle (running_of_main (idle_spec.mp hi).1)
  | mysqlNone hi hreq hp => exact idle (running_of_main (idle_spec.mp hi).1)
  | mysqlRsp hi hreq hp hw hs => exact idle (running_of_main (idle_spec.mp hi).1)
  | redisNone hi hreq hp => exact idle (running_of_main (idle_spec.mp hi).1)
  | redisRsp hi hreq hp hw hs => exact idle (running_of_main (idle_spec.mp hi).1)
  | dispatched h1 hl => exact idle (running_of_main h1)
  | recycle hl => exact Or.inl rfl
  | routers => exact Or.inl rfl
  | parse h1 hw hm hsh hs =>
    cases same h1 hw
    exact Or.inr (Or.inl (running_of_runs hs rfl))
  | exit h1 hw hend hb hs => exact Or.inr (Or.inr (running_of_stops hs rfl))
  | curFrame h1 hw hm hsh => cases same h1 hw
  | sendMsg h1 hw hrand => cases same h1 hw
  | nested h1 hw hf => cases same h1 hw
  | suspend h1 hw ha hp hs => cases same h1 hw
  | woke h1 hw hret hwk hs => cases same h1 hw
  | rowNext h1 hw hn hs => cases same h1 hw
  | rowEnd h1 hw hn hsh hs => cases same h1 hw

/-- A handler that runs and stands in `Wait` has stood there, with its transaction as it is, since it was set
going. -/
theorem standing_effect (h : Sound a) (he : Effect a e a') {p : Nat} {kind : WaitKind} {calls : List Call}
    (hk' : a'.running = some ⟨p, .wait kind calls⟩) :
    (a.running = some ⟨p, .wait kind calls⟩ ∧ a'.trans = a.trans ∧ e.target = none ∧ ∀ q act, e ≠ .co q act) ∨
      (a.running = none ∧ e.target = some p) := by
  rcases running_effect he hk' with ⟨⟨p', pc⟩, hk, rfl, -, -⟩ | ⟨hnone, ht, -⟩
  · left
    cases pc with
    | start =>
      rcases starting_effect he hk with hrun | hrun | hrun
      · rw [hrun, hk] at hk'; cases hk'
      · rw [hrun] at hk'; cases hk'
      · rw [hrun] at hk'; cases hk'
    | code calls₀ =>
      cases coding_effect h he hk with
      | stays hrun hq => rw [hrun, hk] at hk'; cases hk'
      | waits hact hs hrun => rw [hrun] at hk'; cases hk'
      | ends hrun => rw [hrun] at hk'; cases hk'
      | next hrun hq => rw [hrun] at hk'; cases hk'
      | last hrun hq => rw [hrun] at hk'; cases hk'
    | wait kind₀ calls₀ =>
      rcases waiting_effect he hk with ⟨hrun, htrans, ht, hno⟩ | ⟨ret, seen, pc, -, -, hw, hrun⟩
      · exact ⟨hrun.symm.trans hk', htrans, ht, hno⟩
      · rw [hrun] at hk'
        cases hk'
        generalize a'.trans p' = tr at hw
        cases hw
  · exact Or.inr ⟨hnone, ht⟩

theorem mysql_kept (h : Sound a) (hc : a.ResponsesOk e) (he : Effect a e a') {p q : Nat} {k : Task}
    (hq : (a.trans p).mysqlRsp = some q)
    (hk : a.running = some k) (hr : ReadsMysql k p q) (hq' : (a'.trans p).mysqlRsp = some q) :
    ∃ k', a'.running = some k' ∧ ReadsMysql k' p q := by
  rcases hr with ⟨fields, rfl⟩ | ⟨n, rfl⟩
  · rcases waiting_effect he hk with ⟨hrun, -⟩ | ⟨ret, seen, pc, rfl, -, hw, hrun⟩
    · exact ⟨_, hrun.trans hk, Or.inl ⟨fields, rfl⟩⟩
    · generalize a'.trans p = t at hw hq'
      cases hw with
      | mysqlNull hn => simp [hq] at hn
      | mysqlEnd hm hsh => cases hq'
      | mysqlRow hm hsh hn =>
        obtain rfl := Option.some.inj (hq.symm.trans hm)
        exact ⟨_, hrun, Or.inr ⟨_, rfl⟩⟩
  · cases coding_effect h he hk with
    | stays hrun hq => exact ⟨_, hrun.trans hk, Or.inr ⟨n, rfl⟩⟩
    | waits hact hs hrun => cases hc.callback p _ _ hact hs hk
    | next hrun hq => exact ⟨_, hrun, Or.inr ⟨_, rfl⟩⟩
    | last hrun hnone => simp [hnone] at hq'

/-- Where a response was read and no error, its pointer is null when the call goes on. -/
theorem redis_kept (he : Effect a e a') {p q : Nat} {rsp : RedisRsp} (hq : (a.trans p).redisRsp = some q)
    (hk : a.running = some ⟨p, .wait (.redis q) []⟩) (hl : a.loop = .redis q rsp) (herr : rsp.errCode = 0)
    (hq' : (a'.trans p).redisRsp = some q) : a'.running = a.running := by
  rcases waiting_effect he hk with ⟨hrun, -⟩ | ⟨ret, seen, pc, rfl, -, hw, hrun⟩
  · exact hrun
  · generalize a'.trans p = t at hw hq'
    cases hw with
    | redisNull hn => simp [hq] at hn
    | @redisError _ _ q' rsp' hm hsh hne =>
      obtain rfl := Option.some.inj (hq.symm.trans hm)
      have : rsp' = rsp := by simpa [shows, hl] using hsh
      exact absurd (this ▸ herr) hne
    | redisEnd hm hsh he => cases hq'

theorem mysql_set (h : Sound a) (hm : a.Mapped) (hreq : a.RequestsOk) (hi : a.RspOk) {p q : Nat} {rsp : MysqlRsp}
    (hw : a.WaitsMysql q) (he : Effect a (.mysqlRsp q rsp (some p)) a') :
    a'.loop = .mysql q rsp ∧ ∃ k, a'.running = some k ∧ ReadsMysql k p q := by
  obtain ⟨id', p', fields, calls', hw⟩ := hw
  cases he with
  | mysqlRsp hidle hmem hp hk hs =>
    cases hreq.own h hm (.mysql q fields) rfl hmem hp hw hk
    obtain rfl := hi.calls _ _ _ _ hk
    exact ⟨rfl, _, running_of_runs hs rfl, Or.inl ⟨fields, rfl⟩⟩

theorem redis_set (h : Sound a) (hm : a.Mapped) (hreq : a.RequestsOk) (hi : a.RspOk) {p q : Nat} {rsp : RedisRsp}
    (hw : a.WaitsRedis q) (he : Effect a (.redisRsp q rsp (some p)) a') :
    a'.loop = .redis q rsp ∧ a'.running = some ⟨p, .wait (.redis q) []⟩ := by
  obtain ⟨id', p', calls', hw⟩ := hw
  cases he with
  | redisRsp hidle hmem hp hk hs =>
    cases hreq.own h hm (.redis q) rfl hmem hp hw hk
    obtain rfl := hi.calls _ _ _ _ hk
    exact ⟨rfl, running_of_runs hs rfl⟩

theorem code_effect (h : Sound a) (hi : a.RspOk) (hc : a.ResponsesOk e) (he : Effect a e a') {p : Nat}
    {calls : List Call}
    (hk' : a'.running = some ⟨p, .code calls⟩) (hne : calls ≠ []) :
    ∃ q n, calls = [⟨q, n⟩] ∧ (a'.trans p).mysqlRsp = some q := by
  rcases running_effect he hk' with ⟨⟨p', pc⟩, hk, rfl, -, -⟩ | ⟨-, -, hno⟩
  · cases pc with
    | start =>
      rcases starting_effect he hk with hrun | hrun | hrun
      · rw [hrun, hk] at hk'
        cases hk'
      · rw [hrun] at hk'
        cases hk'
        exact absurd rfl hne
      · simp [hrun] at hk'
    | wait kind calls₀ =>
      rcases waiting_effect he hk with ⟨hrun, -⟩ | ⟨ret, seen, pc, rfl, -, hw, hrun⟩
      · rw [hrun, hk] at hk'
        cases hk'
      · rw [hrun, Option.some.injEq, Task.mk.injEq] at hk'
        obtain ⟨-, rfl⟩ := hk'
        obtain ⟨id, -, ht⟩ := Option.bind_eq_some_iff.mp hk
        obtain rfl := hi.calls id _ kind calls₀ ht
        generalize a'.trans p' = t at hw ⊢
        cases hw with
        | mysqlRow hm hsh hn => exact ⟨_, _, rfl, hm⟩
        | _ => exact absurd rfl hne
    | code calls₀ =>
      cases coding_effect h he hk with
      | stays hrun hq =>
        rw [hrun, hk] at hk'
        cases hk'
        obtain ⟨q, n, he, hm⟩ := hi.code _ _ hk hne
        exact ⟨q, n, he, hq.trans hm⟩
      | waits hact hs hrun => simp [hrun] at hk'
      | ends hrun => simp [hrun] at hk'
      | next hrun hq =>
        obtain ⟨q, n, he, hm⟩ := hi.code _ _ hk (List.cons_ne_nil _ _)
        cases he
        rw [hrun] at hk'
        cases hk'
        exact ⟨q, _, rfl, hq.trans hm⟩
      | last hrun hq =>
        obtain ⟨q, n, he, hm⟩ := hi.code _ _ hk (List.cons_ne_nil _ _)
        cases he
        rw [hrun] at hk'
        cases hk'
        exact absurd rfl hne
  · exact absurd rfl (hno calls)

theorem rspOk_effect (h : Sound a) (hm : a.Mapped) (hreq : a.RequestsOk) (hi : a.RspOk) (hc : a.ResponsesOk e)
    (he : Effect a e a') : a'.RspOk := by
  refine ⟨?_, ?_, ?_, ?_⟩
  · intro id p kind calls hk
    rcases wait_back he hk with hk | ⟨act, now, interval, hact, hs⟩
    · exact hi.calls id p kind calls hk
    · refine hc.callback p act calls hact ?_ (running_of_task hs.current hs.code)
      obtain ⟨b, ha, -⟩ := hs.asks
      cases ha <;> rfl
  · intro p calls hk hne
    exact code_effect h hi hc he hk hne
  · intro p q hq
    rcases mysqlRsp_back h he hq with hold | ⟨rsp, rfl⟩
    · obtain ⟨⟨rsp, hl⟩, k, hk, hr⟩ := hi.mysql p q hold
      exact ⟨⟨rsp, (loop_of_running he hk).trans hl⟩, mysql_kept h hc he hold hk hr hq⟩
    · obtain ⟨hl, hk⟩ := mysql_set h hm hreq hi (hc.mysql q rsp p rfl) he
      exact ⟨⟨rsp, hl⟩, hk⟩
  · intro p q hq
    rcases redisRsp_back h he hq with hold | ⟨rsp, rfl⟩
    · obtain ⟨rsp, hl, herr, hk⟩ := hi.redis p q hold
      exact ⟨rsp, (loop_of_running he hk).trans hl, herr, (redis_kept he hold hk hl herr hq).trans hk⟩
    · obtain ⟨hl, hk⟩ := redis_set h hm hreq hi (hc.redis q rsp p rfl).1 he
      exact ⟨rsp, hl, (hc.redis q rsp p rfl).2, hk⟩

end

/-! ## Runs -/

/-- No transaction has a pointer to a response. -/
def NoRsp (a : App) : Prop := ∀ p, (a.trans p).mysqlRsp = none ∧ (a.trans p).redisRsp = none

/-- What a call reads in the event is the response to its own query, and the loop is dispatching it. -/
structure ReadsOwn (a : App) (e : Event) : Prop where
  mysql : ∀ p ret q rsp, e = .co p (.woke ret (.mysql q rsp)) →
    a.loop = .mysql q rsp ∧ ∃ fields calls, a.running = some ⟨p, .wait (.mysql q fields) calls⟩
  rows : ∀ p q rsp, e = .co p (.row (.mysql q rsp)) →
    a.loop = .mysql q rsp ∧ ∃ n calls, a.running = some ⟨p, .code (⟨q, n⟩ :: calls)⟩
  redis : ∀ p ret q rsp, e = .co p (.woke ret (.redis q rsp)) →
    a.loop = .redis q rsp ∧ ∃ calls, a.running = some ⟨p, .wait (.redis q) calls⟩

theorem RspOk.noRsp {a : App} (hi : a.RspOk) (hc : a.schedule.curco = none) : a.NoRsp := by
  have hn : a.running = none := running_of_main hc
  intro p
  constructor
  · by_contra hq
    obtain ⟨q, hq⟩ := Option.ne_none_iff_exists'.mp hq
    obtain ⟨-, k, hk, -⟩ := hi.mysql p q hq
    simp [hn] at hk
  · by_contra hq
    obtain ⟨q, hq⟩ := Option.ne_none_iff_exists'.mp hq
    obtain ⟨rsp, -, -, hk⟩ := hi.redis p q hq
    simp [hn] at hk

theorem shown_mysql {a : App} {q : Nat} {rsp rsp' : MysqlRsp} (hl : a.loop = .mysql q rsp)
    (hs : a.shows (.mysql q rsp') = true) : a.loop = .mysql q rsp' := by
  have : rsp' = rsp := by simpa [shows, hl] using hs
  rw [hl, this]

theorem RspOk.reads_mysql {a : App} (hi : a.RspOk) {p q : Nat} {kind : WaitKind} {calls : List Call} {rsp : MysqlRsp}
    (hk : a.running = some ⟨p, .wait kind calls⟩) (hq : (a.trans p).mysqlRsp = some q)
    (hs : a.shows (.mysql q rsp) = true) :
    a.loop = .mysql q rsp ∧ ∃ fields calls, a.running = some ⟨p, .wait (.mysql q fields) calls⟩ := by
  obtain ⟨⟨rsp', hl⟩, k, hk', hr⟩ := hi.mysql p q hq
  refine ⟨shown_mysql hl hs, ?_⟩
  obtain rfl := Option.some.inj (hk.symm.trans hk')
  rcases hr with ⟨fields, hr⟩ | ⟨n, hr⟩
  · cases hr
    exact ⟨fields, [], hk⟩
  · cases hr

theorem RspOk.reads_redis {a : App} (hi : a.RspOk) {p q : Nat} {rsp : RedisRsp} (hq : (a.trans p).redisRsp = some q)
    (hs : a.shows (.redis q rsp) = true) : a.loop = .redis q rsp ∧
    ∃ calls, a.running = some ⟨p, .wait (.redis q) calls⟩ := by
  obtain ⟨rsp', hl, -, hk⟩ := hi.redis p q hq
  have : rsp = rsp' := by simpa [shows, hl] using hs
  rw [hl, this]
  exact ⟨rfl, [], hk⟩

theorem RspOk.readsOwn {a a' : App} {e : Event} (hi : a.RspOk) (he : Effect a e a') : ReadsOwn a e := by
  refine ⟨?_, ?_, ?_⟩
  · rintro p ret q rsp rfl
    cases he with
    | woke hc hk hr hw hs =>
      cases hw with
      | mysqlEnd hm hsh => exact hi.reads_mysql (running_of_task hc hk) hm hsh
      | mysqlRow hm hsh hn => exact hi.reads_mysql (running_of_task hc hk) hm hsh
    | suspend hc hk ha hp hs => cases ha
    | exit hc hk he hb hs => cases he
  · rintro p q rsp rfl
    cases he with
    | rowEnd hc hk hn hsh hs =>
      have hk := running_of_task hc hk
      obtain ⟨q, n, hcalls, hm⟩ := hi.code _ _ hk (List.cons_ne_nil _ _)
      cases hcalls
      obtain ⟨⟨rsp', hl⟩, -⟩ := hi.mysql p q hm
      exact ⟨shown_mysql hl hsh, n, [], hk⟩
    | suspend hc hk ha hp hs => cases ha
    | exit hc hk he hb hs => cases he
  · rintro p ret q rsp rfl
    cases he with
    | woke hc hk hr hw hs =>
      cases hw with
      | redisError hm hsh hne => exact hi.reads_redis hm hsh
      | redisEnd hm hsh herr => exact hi.reads_redis hm hsh
    | suspend hc hk ha hp hs => cases ha
    | exit hc hk he hb hs => cases he

theorem init_rspOk (c : Config) : (init c).RspOk where
  calls := by simp [init]
  code := by simp [init, running, Schedule.init]
  mysql := by simp [init, Transaction.new, Transaction.construct]
  redis := by simp [init, Transaction.new, Transaction.construct]

section
variable {c : Config} {t : List Event} {a : App}

theorem run_rspOk (h : Run (fun _ => ResponsesOk) c t a) : a.RspOk := by
  induction h with
  | nil => exact init_rspOk c
  | @snoc t a e a' hr hc hst ih =>
    have hs := run_sound hr
    exact rspOk_effect hs (mapped_run hr fun _ _ _ hc => hc.id) (run_requestsOk hr) ih hc (step_effect hs hst)

/-- As long as responses come to the waits they are for, Redis responses are no errors and callbacks do not
wait, no pointer is set while no handler runs, and every call reads its own response while the loop has it. -/
theorem responses_run (h : Run (fun _ => ResponsesOk) c t a) : (a.schedule.curco = none → a.NoRsp) ∧
    ∀ t₁ e t₂, t = t₁ ++ e :: t₂ → ∃ a₁, (init c).replay t₁ = some a₁ ∧ ReadsOwn a₁ e := by
  refine ⟨(run_rspOk h).noRsp, fun t₁ e t₂ ht => ?_⟩
  obtain ⟨a₁, a₂, h₁, hc, hst⟩ := h.event t₁ e t₂ ht
  exact ⟨a₁, run_replay h₁, (run_rspOk h₁).readsOwn (step_effect (run_sound h₁) hst)⟩

end

/-- A query of MySQL is answered while it is waited for, and its one row is read. -/
def mysqlAnswered : List Event :=
  [.dispatch 3 { cmd := 7 } (some 0), .co 0 (.parseMsg (.frame 0 { cmd := 7 }) true), .co 0 (.mysqlQuery 1 0), .dispatched,
    .mysqlRsp 0 { transId := 1, errCode := 0, numFields := 1, rows := 1 } (some 0),
    .co 0 (.woke .active (.mysql 0 { transId := 1, errCode := 0, numFields := 1, rows := 1 })),
    .co 0 (.row (.mysql 0 { transId := 1, errCode := 0, numFields := 1, rows := 1 })),
    .co 0 (.onRequest 0 .nothing 0 none)]

/-- Whether the events of `mysqlAnswered` meet the condition. -/
def responsesOk (a : App) : Event → Bool
  | .dispatch _ _ _ => decide (a.getTransaction a.transIdGenerator = none)
  | .mysqlRsp q _ _ => decide (a.schedule.task 1 = some ⟨0, .wait (.mysql q 1) []⟩)
  | .redisRsp _ _ _ => false
  | .co _ act => !act.suspends || decide (a.running = some ⟨0, .code []⟩)
  | _ => true

theorem responsesOk_ok {a : App} {e : Event} (h : responsesOk a e = true) : ResponsesOk a e := by
  refine ⟨?_, ?_, ?_, ?_⟩
  · rintro fd frame p rfl -
    simpa [responsesOk] using h
  · rintro q rsp p rfl
    exact ⟨1, 0, 1, [], by simpa [responsesOk] using h⟩
  · rintro q rsp p rfl
    cases h
  · rintro p act calls rfl hs hk
    have : a.running = some ⟨0, .code []⟩ := by simpa [responsesOk, hs] using h
    rw [hk] at this
    cases this
    rfl

theorem responses_run_one : ∃ a, (init smallConfig).replay mysqlAnswered = some a ∧ a.schedule.curco = none ∧
    a.NoRsp := by
  have h : (replayIf (fun _ => responsesOk) [] (init smallConfig) mysqlAnswered).map (fun a => a.schedule.curco) =
      some none := by decide
  obtain ⟨a, hr, h⟩ := Option.map_eq_some_iff.mp h
  have hrun : Run (fun _ => ResponsesOk) smallConfig ([] ++ mysqlAnswered) a :=
    replayIf_run (fun _ _ _ _ => responsesOk_ok) .nil hr
  exact ⟨a, run_replay hrun, h, (responses_run hrun).1 h⟩

/-- A Redis error leaves its pointer set. -/
theorem redis_error_kept : ∃ t a, Run (fun _ _ _ => True) smallConfig t a ∧ a.idle = true ∧ ¬ a.NoRsp := by
  have h : ((init smallConfig).replay
      [.dispatch 3 { cmd := 7 } (some 0), .co 0 (.parseMsg (.frame 0 { cmd := 7 }) true), .co 0 (.redisExecute 0), .dispatched,
        .redisRsp 0 { transId := 1, errCode := 5 } (some 0),
        .co 0 (.woke .active (.redis 0 { transId := 1, errCode := 5 })),
        .co 0 (.wait 0 1000), .dispatched]).map (fun a => (a.idle,
        (a.trans 0).redisRsp)) = some (true, some 0) := by decide
  obtain ⟨a, hr, h⟩ := Option.map_eq_some_iff.mp h
  simp only [Prod.mk.injEq] at h
  refine ⟨_, a, replay_run (fun _ _ _ _ => trivial) .nil hr, h.1, fun hno => ?_⟩
  simp [(hno 0).2] at h

end App

end GlobalServer
