import GlobalServer.Transaction.DbResults

/-!
# What a step of the application does to the calls

An event that neither brings nor reads a result leaves it with the call that
has it. The other events are the response that is picked, the call that reads
it when its `Wait` returns, and the row that a callback of `MysqlQuery` is done
with.
-/

namespace GlobalServer

open Schedule (Runs Stops)

/-- The event brings a result or reads one. -/
def Event.touches : Event → Bool
  | .mysqlRsp _ _ _ => true
  | .redisRsp _ _ _ => true
  | .co _ (.woke _ (.mysql _ _)) => true
  | .co _ (.woke _ (.redis _ _)) => true
  | .co _ (.row _) => true
  | _ => false

namespace App

/-- No handler waits in a callback of `MysqlQuery`. -/
def NoCallWaits (a : App) : Prop :=
  ∀ id p kind calls, a.schedule.task id = some ⟨p, .wait kind calls⟩ → calls = []

/-- The event is no wait in such a callback. -/
def CallsReturn (a : App) (e : Event) : Prop :=
  ∀ p act calls, e = .co p act → act.suspends = true → a.running = some ⟨p, .code calls⟩ → calls = []

/-- The calls of `MysqlQuery` that the running handler is in the callback of, with their results. -/
def calling (a : App) : List (Nat × DbResult) := match a.running with
  | some ⟨p, .code calls⟩ => calls.map fun call => (p, .mysql call.rsp)
  | _ => []

section
variable {a a' : App} {e : Event}

theorem unread_of_main (hn : a.running = none) : a.unread = [] := by
  unfold unread
  rw [hn]
  cases a.loop <;> rfl

theorem unread_of_code {p : Nat} {calls : List Call} (hk : a.running = some ⟨p, .code calls⟩) : a.unread = [] := by
  unfold unread
  rw [hk]
  cases a.loop <;> rfl

theorem unread_of_start {p : Nat} (hk : a.running = some ⟨p, .start⟩) : a.unread = [] := by
  unfold unread
  rw [hk]
  cases a.loop <;> rfl

theorem unread_of_loop (hl : a.loop = .idle ∨ ∃ m, a.loop = .frame m) : a.unread = [] := by
  unfold unread
  rcases hl with hl | ⟨m, hl⟩ <;> rw [hl]

theorem unread_of_mysqlError {q : Nat} {rsp : MysqlRsp} (hl : a.loop = .mysql q rsp) (he : rsp.errCode ≠ 0) :
    a.unread = [] := by
  unfold unread
  rw [hl]
  split
  · rename_i h _
    cases h
    simp [MysqlRsp.mysqlRes, he]
  · rename_i h _
    cases h
  · rfl

theorem unread_of_redisError {q : Nat} {rsp : RedisRsp} (hl : a.loop = .redis q rsp) (he : rsp.errCode ≠ 0) :
    a.unread = [] := by
  unfold unread
  rw [hl]
  split
  · rename_i h _
    cases h
  · rename_i h _
    cases h
    simp [RedisRsp.reply, he]
  · rfl

theorem calling_of_code {p : Nat} {calls : List Call} (hk : a.running = some ⟨p, .code calls⟩) :
    a.calling = calls.map fun call => (p, .mysql call.rsp) := by
  unfold calling
  rw [hk]

theorem calling_of_main (hn : a.running = none) : a.calling = [] := by
  unfold calling
  rw [hn]

theorem calling_of_wait {p : Nat} {kind : WaitKind} {calls : List Call} (hk : a.running = some ⟨p, .wait kind calls⟩) :
    a.calling = [] := by
  unfold calling
  rw [hk]

theorem calling_of_start {p : Nat} (hk : a.running = some ⟨p, .start⟩) : a.calling = [] := by
  unfold calling
  rw [hk]

theorem running_of_calling {p : Nat} {r : DbResult} (hr : (p, r) ∈ a.calling) :
    ∃ calls, a.running = some ⟨p, .code calls⟩ := by
  unfold calling at hr
  split at hr
  · rename_i p' calls hk
    obtain ⟨call, -, he⟩ := List.mem_map.mp hr
    cases he
    exact ⟨calls, hk⟩
  · simp at hr

theorem inCode_iff {p : Nat} : a.inCode p = true ↔ ∃ calls, a.running = some ⟨p, .code calls⟩ := by
  unfold inCode
  constructor
  · intro h
    split at h
    · rename_i p' calls hk
      obtain rfl : p' = p := by simpa using h
      exact ⟨calls, hk⟩
    · cases h
  · rintro ⟨calls, hk⟩
    simp [hk]

theorem calls_effect (hi : a.NoCallWaits) (hc : a.CallsReturn e) (he : Effect a e a') : a'.NoCallWaits := by
  intro id p kind calls hk
  rcases wait_back he hk with hk | ⟨act, now, interval, hact, hs⟩
  · exact hi id p kind calls hk
  · refine hc p act calls hact ?_ (running_of_task hs.current hs.code)
    obtain ⟨b, ha, -⟩ := hs.asks
    cases ha <;> rfl

theorem unread_of_null {p : Nat} {kind : WaitKind} {calls : List Call} (hk : a.running = some ⟨p, .wait kind calls⟩)
    (hm : ∀ q fields, kind = .mysql q fields → (a.trans p).mysqlRsp = none)
    (hr : ∀ q, kind = .redis q → (a.trans p).redisRsp = none) : a.unread = [] := by
  unfold unread
  rw [hk]
  cases kind with
  | mysql q fields => cases a.loop <;> simp [hm q fields rfl]
  | redis q => cases a.loop <;> simp [hr q rfl]
  | _ => cases a.loop <;> rfl

theorem Woken.quiet {p : Nat} {calls : List Call} {kind : WaitKind} {ret : WaitReturn} {seen : Seen} {t : Transaction}
    {pc : Pc} (hw : Woken a p calls kind ret seen t pc) (hk : a.running = some ⟨p, .wait kind calls⟩)
    (ht : (Event.co p (.woke ret seen)).touches = false) : pc = .code calls ∧ a.unread = [] := by
  cases hw with
  | plain => exact ⟨rfl, unread_of_null hk nofun nofun⟩
  | msgTimeout => exact ⟨rfl, unread_of_null hk nofun nofun⟩
  | msgActive => exact ⟨rfl, unread_of_null hk nofun nofun⟩
  | mysqlNull hq => exact ⟨rfl, unread_of_null hk (fun _ _ _ => hq) nofun⟩
  | redisNull hq => exact ⟨rfl, unread_of_null hk nofun fun _ _ => hq⟩
  | mysqlEnd => cases ht
  | mysqlRow => cases ht
  | redisError => cases ht
  | redisEnd => cases ht

theorem quiet_effect (hm : a.MsgsOk) (hi : a.NoCallWaits) (hc : a.CallsReturn e) (he : Effect a e a')
    (ht : e.touches = false) : a'.unread = a.unread ∧ a'.calling = a.calling := by
  cases he with
  | update hidle => exact ⟨rfl, rfl⟩
  | tick h1 hu hn htar => exact ⟨rfl, rfl⟩
  | fire h1 hu hn hp hk hs =>
    have hl : a.loop = .idle := hm.updating (by simp [hu])
    have hrun := running_of_main h1
    rw [unread_of_main hrun, calling_of_main hrun]
    exact ⟨unread_of_loop (Or.inl hl), calling_of_wait (running_of_runs hs rfl)⟩
  | dispatch hidle hf =>
    have hrun := running_of_main (idle_spec.mp hidle).1
    rw [unread_of_main hrun, calling_of_main hrun]
    refine ⟨unread_of_loop (Or.inr ⟨_, loop_effect (.dispatch hidle hf)⟩), ?_⟩
    unfold calling
    cases hk : App.running _ with
    | none => rfl
    | some k =>
      obtain ⟨p, pc⟩ := k
      rcases running_effect (.dispatch hidle hf) hk with ⟨k, hk', -⟩ | ⟨-, -, hno⟩
      · rw [hrun] at hk'
        cases hk'
      · cases pc with
        | code calls => exact absurd rfl (hno calls)
        | _ => rfl
  | mysqlNone => cases ht
  | mysqlRsp => cases ht
  | redisNone => cases ht
  | redisRsp => cases ht
  | dispatched h1 hl =>
    have hrun := running_of_main h1
    rw [unread_of_main hrun]
    exact ⟨unread_of_main hrun, rfl⟩
  | recycle hl => exact ⟨rfl, rfl⟩
  | routers => exact ⟨rfl, rfl⟩
  | parse h1 hk hcur hsh hs =>
    have hrun := running_of_task h1 hk
    rw [unread_of_start hrun, calling_of_start hrun]
    exact ⟨unread_of_code (running_of_runs hs rfl), calling_of_code (running_of_runs hs rfl)⟩
  | curFrame => exact ⟨rfl, rfl⟩
  | sendMsg h1 hk hr =>
    have hrun := running_of_task h1 hk
    rw [unread_of_code hrun]
    exact ⟨unread_of_code hrun, rfl⟩
  | nested h1 hk hf =>
    have hrun := running_of_task h1 hk
    have hrun' := (running_of_schedule (schedule_of_nested (b := a.takeMsg _) hf (by simp [h1]))).trans hrun
    rw [unread_of_code hrun, calling_of_code hrun]
    exact ⟨unread_of_code hrun', calling_of_code hrun'⟩
  | suspend h1 hk ha hp hs =>
    have hrun := running_of_task h1 hk
    obtain rfl := hc _ _ _ rfl (by cases ha <;> rfl) hrun
    rw [unread_of_code hrun, calling_of_code hrun]
    exact ⟨unread_of_main (running_of_stops hs rfl), calling_of_main (running_of_stops hs rfl)⟩
  | woke h1 hk hr hw hs =>
    have hrun := running_of_task h1 hk
    obtain rfl := hi _ _ _ _ hk
    rw [calling_of_wait hrun]
    obtain ⟨rfl, hnone⟩ := hw.quiet hrun ht
    rw [hnone]
    exact ⟨unread_of_code (running_of_runs hs rfl), calling_of_code (running_of_runs hs rfl)⟩
  | rowNext => cases ht
  | rowEnd => cases ht
  | exit h1 hk hend hb hs =>
    have hrun := running_of_task h1 hk
    have hnone : a.unread = [] ∧ a.calling = [] := by
      cases hend with
      | parse => exact ⟨unread_of_start hrun, calling_of_start hrun⟩
      | reply => exact ⟨unread_of_code hrun, calling_of_code hrun⟩
      | silent => exact ⟨unread_of_code hrun, calling_of_code hrun⟩
    rw [hnone.1, hnone.2]
    exact ⟨unread_of_main (running_of_stops hs rfl), calling_of_main (running_of_stops hs rfl)⟩

theorem kind_of_task (h : Sound a) {id id' p : Nat} {kind kind' : WaitKind} {calls calls' : List Call}
    (hk : a.schedule.task id = some ⟨p, .wait kind calls⟩) (hk' : a.schedule.task id' = some ⟨p, .wait kind' calls'⟩) :
    kind = kind' := by
  obtain rfl : id = id' := (h.owner id _ hk).2.1.symm.trans (h.owner id' _ hk').2.1
  cases hk.symm.trans hk'
  rfl

/-- A response is picked while no handler runs, and the call that it is handed to is about to read its result. -/
theorem unread_mysqlRsp (h : Sound a) {q : Nat} {rsp : MysqlRsp} {target : Option Nat}
    (he : Effect a (.mysqlRsp q rsp target) a')
    (hok : rsp.errCode = 0 → ∃ id p q' fields calls,
      target = some p ∧ a.schedule.task id = some ⟨p, .wait (.mysql q' fields) calls⟩) :
    a.running = none ∧ a'.unread = (rsp.mysqlRes q).toList ∧ a'.calling = [] := by
  have hl := loop_effect he
  cases he with
  | mysqlNone hidle hq hp =>
    have hmain := running_of_main (idle_spec.mp hidle).1
    have herr : rsp.errCode ≠ 0 := fun herr => by
      obtain ⟨_, _, _, _, _, ht, -⟩ := hok herr
      cases ht
    exact ⟨hmain, (unread_of_mysqlError hl herr).trans (by simp [MysqlRsp.mysqlRes, herr]), calling_of_main hmain⟩
  | mysqlRsp hidle hq hp hk hs =>
    refine ⟨running_of_main (idle_spec.mp hidle).1, ?_, calling_of_wait (running_of_runs hs rfl)⟩
    by_cases herr : rsp.errCode = 0
    · obtain ⟨id', p', q', fields, calls', ht, hk'⟩ := hok herr
      cases ht
      obtain rfl := kind_of_task h hk hk'
      unfold unread
      rw [running_of_runs hs rfl]
      simp
    · exact (unread_of_mysqlError hl herr).trans (by simp [MysqlRsp.mysqlRes, herr])

theorem unread_redisRsp (h : Sound a) {q : Nat} {rsp : RedisRsp} {target : Option Nat}
    (he : Effect a (.redisRsp q rsp target) a')
    (hok : rsp.errCode = 0 → ∃ id p q' calls,
      target = some p ∧ a.schedule.task id = some ⟨p, .wait (.redis q') calls⟩) :
    a.running = none ∧ a'.unread = (rsp.reply q).toList ∧ a'.calling = [] := by
  have hl := loop_effect he
  cases he with
  | redisNone hidle hq hp =>
    have hmain := running_of_main (idle_spec.mp hidle).1
    have herr : rsp.errCode ≠ 0 := fun herr => by
      obtain ⟨_, _, _, _, ht, -⟩ := hok herr
      cases ht
    exact ⟨hmain, (unread_of_redisError hl herr).trans (by simp [RedisRsp.reply, herr]), calling_of_main hmain⟩
  | redisRsp hidle hq hp hk hs =>
    refine ⟨running_of_main (idle_spec.mp hidle).1, ?_, calling_of_wait (running_of_runs hs rfl)⟩
    by_cases herr : rsp.errCode = 0
    · obtain ⟨id', p', q', calls', ht, hk'⟩ := hok herr
      cases ht
      obtain rfl := kind_of_task h hk hk'
      unfold unread
      rw [running_of_runs hs rfl]
      simp
    · exact (unread_of_redisError hl herr).trans (by simp [RedisRsp.reply, herr])

theorem woke_error {p q q' fields : Nat} {ret : WaitReturn} {rsp : MysqlRsp} {calls : List Call}
    (hk : a.running = some ⟨p, .wait (.mysql q' fields) calls⟩) (hq : (a.trans p).mysqlRsp = some q)
    (herr : rsp.errCode ≠ 0) (hst : a.step (.co p (.woke ret (.mysql q rsp))) = some a') :
    (a'.trans p).mysqlRsp = none := by
  simp only [step, hk, if_true, act, Option.ite_none_right_eq_some, woke, setTrans_trans, Function.update_self, hq,
    Option.map_eq_some_iff] at hst
  obtain ⟨-, r, hr, rfl⟩ := hst
  obtain ⟨hseen, -⟩ := mysqlRsp_eq_some.mp hr
  cases hseen
  simp [mysqlQueryRsp, herr, clearMysqlRsp, goto]

theorem woke_mysql (h : Sound a) (hi : a.NoCallWaits) {p q : Nat} {ret : WaitReturn} {rsp : MysqlRsp}
    (hst : a.step (.co p (.woke ret (.mysql q rsp))) = some a') :
    (∃ q' fields, a.running = some ⟨p, .wait (.mysql q' fields) []⟩) ∧ (a.trans p).mysqlRsp = some q ∧
    a.shows (.mysql q rsp) = true ∧ ((a'.trans p).mysqlRsp = none ∧ a'.running = some ⟨p, .code []⟩ ∨
    rsp.errCode = 0 ∧ (a'.trans p).mysqlRsp = some q ∧ ∃ n, a'.running = some ⟨p, .code [⟨q, n⟩]⟩) := by
  have he := step_effect h hst
  cases he with
  | woke hc hk hr hw hs =>
    obtain rfl := hi _ _ _ _ hk
    have hrun := running_of_task hc hk
    cases hw with
    | mysqlEnd hq hsh => exact ⟨⟨_, _, hrun⟩, hq, hsh, Or.inl ⟨by simp, running_of_runs hs rfl⟩⟩
    | mysqlRow hq hsh hn =>
      refine ⟨⟨_, _, hrun⟩, hq, hsh, Or.inr ⟨?_, by simpa using hq, _, running_of_runs hs rfl⟩⟩
      by_contra herr
      have := woke_error hrun hq herr hst
      simp [hq] at this
  | suspend hc hk ha hp hs => cases ha
  | exit hc hk hend hb hs => cases hend

theorem woke_redis (hi : a.NoCallWaits) {p q : Nat} {ret : WaitReturn} {rsp : RedisRsp}
    (he : Effect a (.co p (.woke ret (.redis q rsp))) a') :
    (∃ q', a.running = some ⟨p, .wait (.redis q') []⟩) ∧ (a.trans p).redisRsp = some q ∧
    a.shows (.redis q rsp) = true ∧ a'.running = some ⟨p, .code []⟩ := by
  cases he with
  | woke hc hk hr hw hs =>
    obtain rfl := hi _ _ _ _ hk
    have hrun := running_of_task hc hk
    cases hw with
    | redisError hq hsh herr => exact ⟨⟨_, hrun⟩, hq, hsh, running_of_runs hs rfl⟩
    | redisEnd hq hsh herr => exact ⟨⟨_, hrun⟩, hq, hsh, running_of_runs hs rfl⟩
  | suspend hc hk ha hp hs => cases ha
  | exit hc hk hend hb hs => cases hend

theorem row_running {p : Nat} {seen : Seen} (he : Effect a (.co p (.row seen)) a') :
    ∃ call calls, a.running = some ⟨p, .code (call :: calls)⟩ ∧
      (seen = .nothing ∧ (∃ n, a'.running = some ⟨p, .code (⟨call.rsp, n⟩ :: calls)⟩) ∨
        ∃ rsp, seen = .mysql call.rsp rsp ∧ a'.running = some ⟨p, .code calls⟩) := by
  cases he with
  | rowNext hc hk hn hs => exact ⟨_, _, running_of_task hc hk, Or.inl ⟨rfl, _, running_of_runs hs rfl⟩⟩
  | rowEnd hc hk hn hsh hs => exact ⟨_, _, running_of_task hc hk, Or.inr ⟨_, rfl, running_of_runs hs rfl⟩⟩
  | suspend hc hk ha hp hs => cases ha
  | exit hc hk hend hb hs => cases hend

theorem ends_of_stops {p id : Nat} {act : Act} (he : Effect a (.co p act) a') (hc : a.schedule.curco = some id)
    (hs : Stops a.schedule a'.schedule id none) : act.ends = true := by
  have runs : ∀ {s : Schedule Task} {i : Nat} {k : Task}, Runs a.schedule s i k → a'.schedule = s →
      act.ends = true := fun hr hs' => by
    have := hr.curco
    rw [← hs', hs.curco] at this
    cases this
  cases he with
  | parse h1 hk hm hsh hr => exact runs hr rfl
  | curFrame h1 hk hm hsh => exact absurd hs.curco (by simp [hc])
  | sendMsg h1 hk hr => exact absurd hs.curco (by simp [setReqRandom, hc])
  | nested h1 hk hf =>
    have hsame := schedule_of_nested (b := a.takeMsg _) hf (by simp [hc])
    exact absurd hs.curco (by simp [hsame, hc])
  | suspend h1 hk ha hp hs' =>
    obtain rfl := Option.some.inj (hc.symm.trans h1)
    have := congrFun (hs.task.symm.trans hs'.task) id
    simp at this
  | woke h1 hk hr hw hr' => exact runs hr' rfl
  | rowNext h1 hk hn hr => exact runs hr rfl
  | rowEnd h1 hk hn hsh hr => exact runs hr rfl
  | exit h1 hk hend hb hs' => cases hend <;> rfl

theorem running_or_ends (h : Sound a) (he : Effect a e a') {p : Nat} (hp : a.Running p) :
    a'.Running p ∨ ∃ act, e = .co p act ∧ act.ends = true := by
  cases effect_life h he with
  | keep ok waits trans handler => exact Or.inl ((running_keep handler).mpr hp)
  | start hd hdst hc born ok cur new task => exact Or.inl ((running_start new task).mpr (Or.inl hp))
  | lost hd hdst hc born schedule => exact Or.inl ((running_same schedule).mpr hp)
  | @exit p' id act hact cur run hs =>
    by_cases hne : p = p'
    · subst hne hact
      exact Or.inr ⟨act, rfl, ends_of_stops he cur hs⟩
    · exact Or.inl ((running_exit h run hs).mpr ⟨hp, hne⟩)

/-! ## Requests and their results -/

end

end App

/-- The wait for the response that brings the result. -/
def DbResult.kind : DbResult → WaitKind
  | .mysql q => .mysql q 0
  | .redis q => .redis q

def DbResult.query : DbResult → Nat
  | .mysql q => q
  | .redis q => q

theorem DbResult.kind_req (r : DbResult) : r.kind.req = some r.query := by cases r <;> rfl

namespace App

section
variable {a a' : App} {e : Event}

/-- No query is asked for twice. -/
structure AskedOnce (a : App) : Prop where
  mysql : (a.mysqlReqs.map Prod.fst).Nodup
  redis : (a.redisReqs.map Prod.fst).Nodup

theorem askedOnce_effect (hreq : a.RequestsOk) (hi : a.AskedOnce) (he : Effect a e a') : a'.AskedOnce := by
  cases he with
  | dispatch hidle hf => obtain ⟨_, _, _, _, _, _, rfl⟩ := hf.rest; exact ⟨hi.mysql, hi.redis⟩
  | nested hc hk hf => obtain ⟨_, _, _, _, _, _, rfl⟩ := hf.rest; exact ⟨hi.mysql, hi.redis⟩
  | mysqlNone hidle hq hp => exact ⟨hi.mysql.sublist (List.erase_sublist.map _), hi.redis⟩
  | mysqlRsp hidle hq hp hk hs => exact ⟨hi.mysql.sublist (List.erase_sublist.map _), hi.redis⟩
  | redisNone hidle hq hp => exact ⟨hi.mysql, hi.redis.sublist (List.erase_sublist.map _)⟩
  | redisRsp hidle hq hp hk hs => exact ⟨hi.mysql, hi.redis.sublist (List.erase_sublist.map _)⟩
  | suspend hc hk ha hp hs =>
    cases ha with
    | mysqlQuery =>
      refine ⟨List.nodup_cons.mpr ⟨fun hmem => ?_, hi.mysql⟩, hi.redis⟩
      obtain ⟨⟨q, i⟩, hmem, rfl⟩ := List.mem_map.mp hmem
      exact absurd (hreq.top (.mysql a.reqTop 0) _ i rfl hmem) (Nat.lt_irrefl _)
    | redisExecute =>
      refine ⟨hi.mysql, List.nodup_cons.mpr ⟨fun hmem => ?_, hi.redis⟩⟩
      obtain ⟨⟨q, i⟩, hmem, rfl⟩ := List.mem_map.mp hmem
      exact absurd (hreq.top (.redis a.reqTop) _ i rfl hmem) (Nat.lt_irrefl _)
    | _ => exact ⟨hi.mysql, hi.redis⟩
  | _ => exact ⟨hi.mysql, hi.redis⟩

theorem not_mem_erase_of_nodup {l : List (Nat × UInt32)} (hl : (l.map Prod.fst).Nodup) {q : Nat} {i j : UInt32}
    (hq : (q, j) ∈ l) : (q, i) ∉ l.erase (q, j) := by
  intro hi
  have hij := List.inj_on_of_nodup_map hl (List.mem_of_mem_erase hi) hq rfl
  exact hl.of_map.not_mem_erase (hij ▸ hi)

/-- The result has been stored, and its query is answered. -/
def Answered (a : App) (r : DbResult) : Prop := r.query < a.reqTop ∧ ∀ i, ¬ a.Requested r.kind i

theorem answered_effect (he : Effect a e a') {r : DbResult} (hr : a.Answered r) : a'.Answered r := by
  refine ⟨Nat.lt_of_lt_of_le hr.1 (reqTop_effect he), fun i hi => ?_⟩
  rcases requested_back he hi with hi | ⟨p, -, hq, -⟩
  · exact hr.2 i hi
  · rw [r.kind_req, Option.some.injEq] at hq
    exact absurd hr.1 (by omega)

theorem answered_mysql (hreq : a.RequestsOk) (hi : a.AskedOnce) {q : Nat} {rsp : MysqlRsp} {target : Option Nat}
    (he : Effect a (.mysqlRsp q rsp target) a') : a.Requested (DbResult.mysql q).kind rsp.transId ∧
    a'.Answered (.mysql q) := by
  cases he with
  | mysqlNone hidle hq hp =>
    exact ⟨hq, hreq.top (.mysql q 0) q _ rfl hq, fun i => not_mem_erase_of_nodup hi.mysql hq⟩
  | mysqlRsp hidle hq hp hk hs =>
    exact ⟨hq, hreq.top (.mysql q 0) q _ rfl hq, fun i => not_mem_erase_of_nodup hi.mysql hq⟩

theorem answered_redis (hreq : a.RequestsOk) (hi : a.AskedOnce) {q : Nat} {rsp : RedisRsp} {target : Option Nat}
    (he : Effect a (.redisRsp q rsp target) a') : a.Requested (DbResult.redis q).kind rsp.transId ∧
    a'.Answered (.redis q) := by
  cases he with
  | redisNone hidle hq hp =>
    exact ⟨hq, hreq.top (.redis q) q _ rfl hq, fun i => not_mem_erase_of_nodup hi.redis hq⟩
  | redisRsp hidle hq hp hk hs =>
    exact ⟨hq, hreq.top (.redis q) q _ rfl hq, fun i => not_mem_erase_of_nodup hi.redis hq⟩

end

end App

end GlobalServer
