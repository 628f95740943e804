import GlobalServer.Transaction.DbCalls

/-!
# Every result is accounted for

As long as a result comes while its transaction is in a wait for such a result,
a call reads the response that is in dispatch, and no callback of `MysqlQuery`
waits, the log leaves just the results that the calls have.
-/

namespace GlobalServer

open Ledger (Op InOrder Holds)

namespace DbApp

open App

/-- The results that somebody has. -/
def held (s : DbApp) : List DbResult := s.app.unread ++ (s.results ++ s.parsers).map Prod.snd

/-- The log leaves just the results that somebody has, and a result that a callback gets rows of is in the response
in dispatch. -/
structure Accounted (s : DbApp) : Prop where
  held : Holds s.log s.held
  results : s.results = s.app.calling
  rows : s.results ≠ [] → ∃ p q rsp, s.results = [(p, .mysql q)] ∧ s.app.loop = .mysql q rsp ∧ rsp.errCode = 0
  parsers : ∀ p r, (p, r) ∈ s.parsers → s.app.Running p ∧ ∃ q, r = .redis q
  calls : s.app.NoCallWaits
  answered : ∀ r, .store r ∈ s.log → s.app.Answered r
  once : s.app.AskedOnce

@[simp] theorem logs_log (s : DbApp) (ops : List (Op DbResult)) : (s.logs ops).log = s.log ++ ops := rfl

@[simp] theorem logs_app (s : DbApp) (ops : List (Op DbResult)) : (s.logs ops).app = s.app := rfl

@[simp] theorem logs_results (s : DbApp) (ops : List (Op DbResult)) : (s.logs ops).results = s.results := rfl

@[simp] theorem logs_parsers (s : DbApp) (ops : List (Op DbResult)) : (s.logs ops).parsers = s.parsers := rfl

theorem logs_nil (s : DbApp) : s.logs [] = s := by simp [logs]

section
variable {s s' : DbApp} {a' : App} {e : Event}

theorem Accounted.running (hi : s.Accounted) (h : Sound s.app) (he : Effect s.app e a')
    (hend : ∀ p act, e = .co p act → act.ends = true → ∀ r, (p, r) ∉ s.parsers) {p : Nat} {r : DbResult}
    (hr : (p, r) ∈ s.parsers) : a'.Running p ∧ ∃ q, r = .redis q := by
  obtain ⟨hrun, hq⟩ := hi.parsers p r hr
  rcases running_or_ends h he hrun with hrun | ⟨act, hact, hends⟩
  · exact ⟨hrun, hq⟩
  · exact absurd hr (hend p act hact hends r)

/-- Of what a step keeps, the waits, the answered requests and the requests are the application's own. -/
theorem Accounted.step (hi : s.Accounted) (hreq : s.app.RequestsOk) (hc : s.app.CallsReturn e)
    (he : Effect s.app e a') (happ : s'.app = a') (held : Holds s'.log s'.held) (results : s'.results = a'.calling)
    (rows : s'.results ≠ [] → ∃ p q rsp, s'.results = [(p, .mysql q)] ∧ a'.loop = .mysql q rsp ∧ rsp.errCode = 0)
    (parsers : ∀ p r, (p, r) ∈ s'.parsers → a'.Running p ∧ ∃ q, r = .redis q)
    (stored : ∀ r, .store r ∈ s'.log → .store r ∈ s.log ∨ a'.Answered r) : s'.Accounted := by
  subst happ
  exact
    { held, results, rows, parsers
      calls := calls_effect hi.calls hc he
      answered := fun r hr => (stored r hr).elim (fun hr => answered_effect he (hi.answered r hr)) id
      once := askedOnce_effect hreq hi.once he }

theorem Accounted.quiet (hi : s.Accounted) (h : Sound s.app) (hm : s.app.MsgsOk) (hreq : s.app.RequestsOk)
    (hc : s.app.CallsReturn e) (he : Effect s.app e a') (ht : e.touches = false)
    (hend : ∀ p act, e = .co p act → act.ends = true → ∀ r, (p, r) ∉ s.parsers) : { s with app := a' }.Accounted := by
  obtain ⟨hun, hcall⟩ := quiet_effect hm hi.calls hc he ht
  refine hi.step hreq hc he rfl ?_ (hi.results.trans hcall.symm) ?_ (fun p r hr => hi.running h he hend hr)
    fun r hr => Or.inl hr
  · have := hi.held
    rwa [DbApp.held, ← hun] at this
  · intro hne
    obtain ⟨p, q, rsp, hres, hl, herr⟩ := hi.rows hne
    cases hk : s.app.running with
    | none => exact absurd (hi.results.trans (calling_of_main hk)) hne
    | some k => exact ⟨p, q, rsp, hres, (loop_of_running he hk).trans hl, herr⟩

theorem Accounted.brings (hi : s.Accounted) (h : Sound s.app) (hreq : s.app.RequestsOk) (he : Effect s.app e a')
    (hno : ∀ p act, e ≠ .co p act) (hmain : s.app.running = none) {o : Option DbResult} (hun : a'.unread = o.toList)
    (hcall : a'.calling = []) (hnew : ∀ r, o = some r → .store r ∉ s.log ∧ a'.Answered r) :
    ({ s with app := a' }.logs (o.toList.map .store)).Accounted := by
  have hnil : s.results = [] := hi.results.trans (calling_of_main hmain)
  refine hi.step hreq (fun p act _ hact => absurd hact (hno p act)) he rfl ?_ (hnil.trans hcall.symm)
    (fun hne => absurd hnil hne) (fun p r hr => hi.running h he (fun p act hact => absurd hact (hno p act)) hr) ?_
  · have hheld : s.held = (s.results ++ s.parsers).map Prod.snd := by simp [DbApp.held, unread_of_main hmain]
    have hheld' : ({ s with app := a' }.logs (o.toList.map .store)).held = o.toList ++ s.held := by
      rw [hheld]
      exact congrArg (· ++ _) hun
    rw [hheld']
    cases o with
    | none => simpa using hi.held
    | some r => exact hi.held.store (hnew r rfl).1
  · intro r hr
    cases o with
    | none => simpa using Or.inl hr
    | some r' =>
      simp only [logs_log, Option.toList_some, List.map_cons, List.map_nil, List.mem_append, List.mem_singleton,
        Op.store.injEq] at hr
      rcases hr with hr | rfl
      · exact Or.inl hr
      · exact Or.inr (hnew r rfl).2

theorem Accounted.mysqlRsp (hi : s.Accounted) (h : Sound s.app) (hreq : s.app.RequestsOk) {q : Nat} {rsp : MysqlRsp}
    {target : Option Nat} (he : Effect s.app (.mysqlRsp q rsp target) a')
    (hok : rsp.errCode = 0 → ∃ id p q' fields calls,
      target = some p ∧ s.app.schedule.task id = some ⟨p, .wait (.mysql q' fields) calls⟩) :
    ({ s with app := a' }.logs ((rsp.mysqlRes q).toList.map .store)).Accounted := by
  obtain ⟨hreqd, hans⟩ := answered_mysql hreq hi.once he
  obtain ⟨hmain, hun, hcall⟩ := unread_mysqlRsp h he hok
  refine hi.brings h hreq he (fun _ _ h => nomatch h) hmain hun hcall fun r hr => ?_
  obtain rfl := Option.some.inj (Option.ite_none_right_eq_some.mp hr).2
  exact ⟨fun hst => (hi.answered _ hst).2 _ hreqd, hans⟩

theorem Accounted.redisRsp (hi : s.Accounted) (h : Sound s.app) (hreq : s.app.RequestsOk) {q : Nat} {rsp : RedisRsp}
    {target : Option Nat} (he : Effect s.app (.redisRsp q rsp target) a')
    (hok : rsp.errCode = 0 → ∃ id p q' calls,
      target = some p ∧ s.app.schedule.task id = some ⟨p, .wait (.redis q') calls⟩) :
    ({ s with app := a' }.logs ((rsp.reply q).toList.map .store)).Accounted := by
  obtain ⟨hreqd, hans⟩ := answered_redis hreq hi.once he
  obtain ⟨hmain, hun, hcall⟩ := unread_redisRsp h he hok
  refine hi.brings h hreq he (fun _ _ h => nomatch h) hmain hun hcall fun r hr => ?_
  obtain rfl := Option.some.inj (Option.ite_none_right_eq_some.mp hr).2
  exact ⟨fun hst => (hi.answered _ hst).2 _ hreqd, hans⟩

theorem Accounted.moves (hi : s.Accounted) (h : Sound s.app) (hreq : s.app.RequestsOk) {p : Nat} {pc : Pc}
    {act : Act} (hk : s.app.running = some ⟨p, pc⟩) (he : Effect s.app (.co p act) a') (hs : act.suspends = false)
    (hend : act.ends = false) (happ : s'.app = a') (held : Holds s'.log s'.held) (results : s'.results = a'.calling)
    (rows : s'.results ≠ [] → ∃ p q rsp, s'.results = [(p, .mysql q)] ∧ s.app.loop = .mysql q rsp ∧ rsp.errCode = 0)
    (parsers : ∀ p' r, (p', r) ∈ s'.parsers → (p', r) ∈ s.parsers ∨ p' = p ∧ ∃ q, r = .redis q)
    (stored : ∀ r, .store r ∈ s'.log → .store r ∈ s.log) : s'.Accounted := by
  have hno : ∀ p' act', Event.co p act = .co p' act' → act'.ends = true → ∀ r, (p', r) ∉ s.parsers := by
    intro p' act' hact hends
    cases hact
    simp [hend] at hends
  refine hi.step hreq ?_ he happ held results ?_ ?_ fun r hr => Or.inl (stored r hr)
  · intro p' act' calls hact hsus
    cases hact
    simp [hs] at hsus
  · rw [loop_of_running he hk]
    exact rows
  · intro p' r hr
    rcases parsers p' r hr with hr | ⟨rfl, hq⟩
    · exact hi.running h he hno hr
    · rcases running_or_ends h he (running_Running hk) with hrun | ⟨act', hact, hends⟩
      · exact ⟨hrun, hq⟩
      · cases hact
        simp [hend] at hends

section
variable {p q : Nat} {kind : WaitKind} {ret : WaitReturn} {seen : Seen} {res : Option DbResult}

theorem Accounted.waiting (hi : s.Accounted) (hk : s.app.running = some ⟨p, .wait kind []⟩) :
    s.results = [] ∧ Holds s.log (s.app.unread ++ s.parsers.map Prod.snd) := by
  have hnil : s.results = [] := hi.results.trans (calling_of_wait hk)
  have hheld := hi.held
  rw [DbApp.held, hnil, List.nil_append] at hheld
  exact ⟨hnil, hheld⟩

theorem Accounted.returns (hi : s.Accounted) (h : Sound s.app) (hreq : s.app.RequestsOk)
    (hk : s.app.running = some ⟨p, .wait kind []⟩) (he : Effect s.app (.co p (.woke ret seen)) a')
    (hk' : a'.running = some ⟨p, .code []⟩) (happ : s'.app = a') (results : s'.results = s.results)
    (held : Holds s'.log (s'.parsers.map Prod.snd))
    (parsers : ∀ p' r, (p', r) ∈ s'.parsers → (p', r) ∈ s.parsers ∨ p' = p ∧ ∃ q, r = .redis q)
    (stored : ∀ r, .store r ∈ s'.log → .store r ∈ s.log) : s'.Accounted := by
  have hnil := results.trans (hi.waiting hk).1
  refine hi.moves h hreq hk he rfl rfl happ ?_ (hnil.trans (calling_of_code hk').symm) (fun hne => absurd hnil hne)
    parsers stored
  subst happ
  rwa [DbApp.held, unread_of_code hk', hnil]

theorem Accounted.mysqlWoke (hi : s.Accounted) (h : Sound s.app) (hreq : s.app.RequestsOk) {rsp : MysqlRsp}
    (hst : s.app.step (.co p (.woke ret (.mysql q rsp))) = some a') (hsh : s.app.showsRes (.mysql q rsp) res = true)
    (hl : ∃ rsp', s.app.loop = .mysql q rsp') (hs' : { s with app := a' }.mysqlWoke p rsp res = some s') :
    s'.Accounted := by
  obtain ⟨⟨q', fields, hk⟩, hq, hshow, hgo⟩ := woke_mysql h hi.calls hst
  obtain ⟨rsp', hl⟩ := hl
  have hl := shown_mysql hl hshow
  obtain rfl : res = rsp.mysqlRes q := by simpa [showsRes, hl] using hsh
  have he := step_effect h hst
  obtain ⟨hnil, hheld⟩ := hi.waiting hk
  have hun : s.app.unread = (rsp.mysqlRes q).toList := by simp [unread, hl, hk, hq]
  rw [hun] at hheld
  by_cases herr : rsp.errCode = 0
  · have hres : rsp.mysqlRes q = some (.mysql q) := by simp [MysqlRsp.mysqlRes, herr]
    rw [hres] at hheld
    have hread := hheld.read (r := .mysql q) List.mem_cons_self
    simp only [DbApp.mysqlWoke, herr, ne_eq, not_true_eq_false, if_false, hres, Option.map_some, Option.some.injEq] at hs'
    rcases hgo with ⟨hnull, hk'⟩ | ⟨-, hset, n, hk'⟩
    · rw [if_pos hnull] at hs'
      subst hs'
      refine hi.returns h hreq hk he hk' rfl rfl ?_ (fun p' r hr => Or.inl hr) (by simp)
      simpa using hread.free
    · rw [if_neg (by simp [hset])] at hs'
      subst hs'
      refine hi.moves h hreq hk he rfl rfl rfl ?_ ?_ ?_ (fun p' r hr => Or.inl hr) (by simp)
      · simpa [DbApp.held, unread_of_code hk', hnil] using hread
      · simp [hnil, calling_of_code hk']
      · exact fun _ => ⟨p, q, rsp, by simp [hnil], hl, herr⟩
  · have hres : rsp.mysqlRes q = none := by simp [MysqlRsp.mysqlRes, herr]
    rw [hres] at hheld
    simp only [DbApp.mysqlWoke, herr, ne_eq, not_false_eq_true, if_true, hres, Option.toList_none, List.map_nil, logs_nil,
      Option.some.injEq] at hs'
    subst hs'
    obtain ⟨-, hk'⟩ := hgo.resolve_right fun hrow => herr hrow.1
    exact hi.returns h hreq hk he hk' rfl rfl hheld (fun p' r hr => Or.inl hr) fun r hr => hr

theorem Accounted.redisWoke (hi : s.Accounted) (h : Sound s.app) (hreq : s.app.RequestsOk) {rsp : RedisRsp}
    (he : Effect s.app (.co p (.woke ret (.redis q rsp))) a') (hsh : s.app.showsRes (.redis q rsp) res = true)
    (hl : ∃ rsp', s.app.loop = .redis q rsp') : ({ s with app := a' }.redisWoke p rsp res).Accounted := by
  obtain ⟨⟨q', hk⟩, hq, hshow, hk'⟩ := woke_redis hi.calls he
  obtain ⟨rsp', hl⟩ := hl
  have hl : s.app.loop = .redis q rsp := by
    have : rsp = rsp' := by simpa [shows, hl] using hshow
    rw [hl, this]
  obtain rfl : res = rsp.reply q := by simpa [showsRes, hl] using hsh
  have hheld := (hi.waiting hk).2
  have hun : s.app.unread = (rsp.reply q).toList := by simp [unread, hl, hk, hq]
  rw [hun] at hheld
  by_cases herr : rsp.errCode = 0
  · have hres : rsp.reply q = some (.redis q) := by simp [RedisRsp.reply, herr]
    rw [hres] at hheld
    simp only [DbApp.redisWoke, herr, ne_eq, not_true_eq_false, if_false, hres, Option.toList_some, List.map_cons,
      List.map_nil, List.singleton_append]
    refine hi.returns h hreq hk he hk' rfl rfl hheld (fun p' r hr => ?_) fun r hr => hr
    rcases List.mem_cons.mp hr with hr | hr
    · cases hr
      exact Or.inr ⟨rfl, q, rfl⟩
    · exact Or.inl hr
  · have hres : rsp.reply q = none := by simp [RedisRsp.reply, herr]
    rw [hres] at hheld
    simp only [DbApp.redisWoke, herr, ne_eq, not_false_eq_true, if_true, hres, Option.toList_none, List.map_nil, logs_nil]
    exact hi.returns h hreq hk he hk' rfl rfl hheld (fun p' r hr => Or.inl hr) fun r hr => hr

end

theorem Accounted.mysqlRow (hi : s.Accounted) (h : Sound s.app) (hreq : s.app.RequestsOk) {p : Nat} {seen : Seen}
    {res : Option DbResult} (he : Effect s.app (.co p (.row seen)) a') (hsh : s.app.showsRes seen res = true)
    (hs' : { s with app := a' }.mysqlRow p seen res = some s') : s'.Accounted := by
  obtain ⟨call, calls, hk, hgo⟩ := row_running he
  have hres := hi.results.trans (calling_of_code hk)
  obtain ⟨p', q, rsp, hrow, hl, herr⟩ := hi.rows (by simp [hres])
  rw [hrow, List.map_cons, List.cons.injEq, Prod.mk.injEq, DbResult.mysql.injEq] at hres
  obtain ⟨⟨rfl, rfl⟩, hcalls⟩ := hres
  obtain rfl : calls = [] := List.map_eq_nil_iff.mp hcalls.symm
  obtain ⟨r, hr, rfl⟩ := Option.map_eq_some_iff.mp hs'
  obtain rfl : r = .mysql call.rsp := by simpa [hrow, eq_comm] using hr
  have hheld := hi.held
  rw [DbApp.held, unread_of_code hk, hrow] at hheld
  have hread := hheld.read (r := .mysql call.rsp) List.mem_cons_self
  rcases hgo with ⟨rfl, n, hk'⟩ | ⟨rsp', rfl, hk'⟩
  · refine hi.moves h hreq hk he rfl rfl rfl ?_ ?_ (fun _ => ⟨_, _, rsp, hrow, hl, herr⟩) (fun p' r hr => Or.inl hr)
      (by simp)
    · simpa [DbApp.held, unread_of_code hk', hrow] using hread
    · simp [hrow, calling_of_code hk']
  · obtain rfl : res = rsp.mysqlRes call.rsp := by simpa [showsRes, hl] using hsh
    refine hi.moves h hreq hk he rfl rfl rfl ?_ ?_ ?_ (fun p' r hr => Or.inl hr) ?_
    · simpa [DbApp.held, unread_of_code hk', hrow, MysqlRsp.mysqlRes, herr] using hread.free
    · simp [hrow, calling_of_code hk']
    · simp [hrow]
    · simp [MysqlRsp.mysqlRes, herr]

/-- A step that neither brings nor reads a result does nothing with one, and ends no handler that has a parser. -/
theorem after_quiet (ht : e.touches = false) {res : Option DbResult} (hs' : s.after e res = some s') :
    s' = s ∧ ∀ p act, e = .co p act → act.ends = true → ∀ r, (p, r) ∉ s.parsers := by
  have kept : (∀ p act, e ≠ .co p act) → some s = some s' →
      s' = s ∧ ∀ p act, e = .co p act → act.ends = true → ∀ r, (p, r) ∉ s.parsers :=
    fun hno hs => ⟨(Option.some.inj hs).symm, fun p act hact => absurd hact (hno p act)⟩
  cases e with
  | co p act =>
    have hif : (if act.ends = true ∧ s.parsers.lookup p ≠ none then none else some s) = some s' := by
      cases act with
      | row seen => cases ht
      | woke ret seen =>
        cases seen with
        | mysql => cases ht
        | redis => cases ht
        | _ => exact hs'
      | _ => exact hs'
    obtain ⟨hn, hs⟩ := Option.ite_none_left_eq_some.mp hif
    refine ⟨(Option.some.inj hs).symm, fun p' act' hact hends r hr => ?_⟩
    cases hact
    have hnone : s.parsers.lookup p = none := by
      by_contra hne
      exact hn ⟨hends, hne⟩
    simpa using List.lookup_eq_none_iff.mp hnone _ hr
  | mysqlRsp => cases ht
  | redisRsp => cases ht
  | _ => exact kept (fun _ _ h => nomatch h) hs'

theorem after_app {res : Option DbResult} (hs' : s.after e res = some s') : s'.app = s.app := by
  cases ht : e.touches with
  | false => rw [(after_quiet ht hs').1]
  | true =>
    cases e with
    | mysqlRsp q rsp target => cases hs'; rfl
    | redisRsp q rsp target => cases hs'; rfl
    | co p act =>
      cases act with
      | row seen =>
        obtain ⟨r, -, rfl⟩ := Option.map_eq_some_iff.mp hs'
        cases seen <;> rfl
      | woke ret seen =>
        cases seen with
        | mysql q rsp =>
          simp only [after, DbApp.mysqlWoke] at hs'
          split at hs'
          · cases hs'; rfl
          · obtain ⟨r, -, rfl⟩ := Option.map_eq_some_iff.mp hs'
            split <;> rfl
        | redis q rsp =>
          cases hs'
          unfold DbApp.redisWoke
          split <;> rfl
        | _ => cases ht
      | _ => cases ht
    | _ => cases ht

theorem Accounted.app (hi : s.Accounted) (h : Sound s.app) (hm : s.app.MsgsOk) (hreq : s.app.RequestsOk)
    {res : Option DbResult} (hc : s.ReleaseOk (.app e res)) (hsh : s.app.showsRes e.seen res = true)
    (hst : s.app.step e = some a') (hs' : { s with app := a' }.after e res = some s') : s'.Accounted := by
  have he := step_effect h hst
  have quiet : e.touches = false → s'.Accounted := fun ht => by
    obtain ⟨rfl, hend⟩ := after_quiet ht hs'
    exact hi.quiet h hm hreq (fun p act calls hact => hc.callback p act calls res (hact ▸ rfl)) he ht hend
  cases e with
  | mysqlRsp q rsp target =>
    cases hs'
    exact hi.mysqlRsp h hreq he (hc.mysql q rsp target res rfl)
  | redisRsp q rsp target =>
    cases hs'
    exact hi.redisRsp h hreq he (hc.redis q rsp target res rfl)
  | co p act =>
    cases act with
    | row seen => exact hi.mysqlRow h hreq he hsh hs'
    | woke ret seen =>
      cases seen with
      | mysql q rsp => exact hi.mysqlWoke h hreq hst hsh (hc.readsMysql p ret q rsp res rfl) hs'
      | redis q rsp =>
        cases hs'
        exact hi.redisWoke h hreq he hsh (hc.readsRedis p ret q rsp res rfl)
      | _ => exact quiet rfl
    | _ => exact quiet rfl
  | _ => exact quiet rfl

theorem Accounted.read (hi : s.Accounted) {p : Nat} {r : DbResult} (hr : (p, r) ∈ s.results ∨ (p, r) ∈ s.parsers) :
    (s.logs [.read r]).Accounted := by
  have hmem : r ∈ s.held :=
    List.mem_append_right _ (List.mem_map.mpr ⟨(p, r), List.mem_append.mpr hr, rfl⟩)
  exact { hi with held := hi.held.read hmem, answered := fun r' hr' => hi.answered r' (by simpa using hr') }

theorem Accounted.parsed (hi : s.Accounted) {p : Nat} {r : DbResult} (hr : (p, r) ∈ s.parsers) :
    ({ s with parsers := s.parsers.erase (p, r) }.logs [.free r]).Accounted := by
  refine
    { hi with
      held := ?_
      parsers := fun p' r' hr' => hi.parsers p' r' (List.mem_of_mem_erase hr')
      answered := fun r' hr' => hi.answered r' (by simpa using hr') }
  refine (hi.held.perm ?_).free
  have hp := ((List.perm_cons_erase hr).append_left s.results).trans List.perm_middle
  exact ((hp.map Prod.snd).append_left s.app.unread).trans List.perm_middle

theorem Accounted.next (hi : s.Accounted) (h : Sound s.app) (hm : s.app.MsgsOk) (hreq : s.app.RequestsOk) {e : DbEvent}
    (hc : s.ReleaseOk e) (hst : s.step e = some s') : s'.Accounted := by
  cases e with
  | app e res =>
    obtain ⟨hsh, hst⟩ := Option.ite_none_right_eq_some.mp hst
    obtain ⟨a', ha, hs'⟩ := Option.bind_eq_some_iff.mp hst
    exact hi.app h hm hreq hc hsh ha hs'
  | read p r =>
    obtain ⟨⟨-, hr⟩, hs'⟩ := Option.ite_none_right_eq_some.mp hst
    cases hs'
    exact hi.read hr
  | parsed p r =>
    obtain ⟨⟨-, hr⟩, hs'⟩ := Option.ite_none_right_eq_some.mp hst
    cases hs'
    exact hi.parsed hr

end

theorem init_accounted (c : Config) : (init c).Accounted where
  held := by
    have : (init c).held = [] := by simp [init, DbApp.held, unread, App.init]
    rw [this]
    exact .nil
  results := rfl
  rows := by simp [init]
  parsers := by simp [init]
  calls := by simp [NoCallWaits, init, App.init]
  answered := by simp [init]
  once := ⟨List.nodup_nil, List.nodup_nil⟩

/-! ## Runs -/

section
variable {C : DbApp → DbEvent → Prop} {c : Config} {t : List DbEvent} {s : DbApp}

theorem run_app (h : Run C c t s) : ∃ u, App.Run (fun _ _ _ => True) c u s.app := by
  induction h with
  | nil => exact ⟨[], .nil⟩
  | @snoc t s e s' hr hc hst ih =>
    obtain ⟨u, hu⟩ := ih
    cases e with
    | app e res =>
      obtain ⟨-, hst⟩ := Option.ite_none_right_eq_some.mp hst
      obtain ⟨a', ha, hs'⟩ := Option.bind_eq_some_iff.mp hst
      rw [after_app hs']
      exact ⟨_, hu.snoc trivial ha⟩
    | read p r =>
      obtain ⟨-, hs'⟩ := Option.ite_none_right_eq_some.mp hst
      cases hs'
      exact ⟨u, hu⟩
    | parsed p r =>
      obtain ⟨-, hs'⟩ := Option.ite_none_right_eq_some.mp hst
      cases hs'
      exact ⟨u, hu⟩

theorem run_accounted (h : Run ReleaseOk c t s) : s.Accounted := by
  refine h.invariant (fun _ s => s.Accounted) (init_accounted c) fun t s e s' hr hi hc hst => ?_
  obtain ⟨u, hu⟩ := run_app hr
  exact hi.next (run_sound hu) (run_msgsOk hu) (run_requestsOk hu) hc hst

theorem Accounted.has (hi : s.Accounted) {r : DbResult} (hr : r ∈ s.held) : s.Has r := by
  rcases List.mem_append.mp hr with hr | hr
  · exact Or.inl hr
  · obtain ⟨⟨p, r⟩, hmem, rfl⟩ := List.mem_map.mp hr
    rcases List.mem_append.mp hmem with hres | hpar
    · rw [hi.results] at hres
      obtain ⟨calls, hk⟩ := running_of_calling hres
      exact Or.inr (Or.inl ⟨p, inCode_iff.mpr ⟨calls, hk⟩, hi.results ▸ hres⟩)
    · exact Or.inr (Or.inr ⟨p, (hi.parsers p r hpar).1, hpar⟩)

theorem Accounted.released (hi : s.Accounted) : s.Released :=
  ⟨hi.held.inOrder, fun _ hr => (hi.held.kept hr).imp_right hi.has⟩

theorem Accounted.mysql_free (hi : s.Accounted) (hc : s.app.schedule.curco = none) {q : Nat}
    (hr : .store (.mysql q) ∈ s.log) : .free (.mysql q) ∈ s.log := by
  have hmain := running_of_main hc
  refine (hi.held.kept hr).resolve_right fun hheld => ?_
  rcases hi.has hheld with hun | ⟨p, hcode, -⟩ | ⟨p, -, hpar⟩
  · simp [unread_of_main hmain] at hun
  · obtain ⟨calls, hk⟩ := inCode_iff.mp hcode
    simp [hmain] at hk
  · obtain ⟨q', hq⟩ := (hi.parsers p _ hpar).2
    cases hq

theorem Accounted.all_free (hi : s.Accounted) (hno : ∀ p, ¬ s.app.Running p) {r : DbResult} (hr : .store r ∈ s.log) :
    .free r ∈ s.log := by
  have hmain : s.app.running = none := by
    cases hk : s.app.running with
    | none => rfl
    | some k => exact absurd (running_Running hk) (hno k.trans)
  refine (hi.held.kept hr).resolve_right fun hheld => ?_
  rcases hi.has hheld with hun | ⟨p, hcode, -⟩ | ⟨p, hrun, -⟩
  · simp [unread_of_main hmain] at hun
  · obtain ⟨calls, hk⟩ := inCode_iff.mp hcode
    simp [hmain] at hk
  · exact hno p hrun

/-- As long as the condition is met, results are released once and not read after it, those of MySQL before the main
loop goes on and all of them before the last handler has ended. -/
theorem released_run (h : Run ReleaseOk c t s) : s.Released ∧
    (s.app.schedule.curco = none → ∀ q, .store (.mysql q) ∈ s.log → .free (.mysql q) ∈ s.log) ∧
    ((∀ p, ¬ s.app.Running p) → ∀ r, .store r ∈ s.log → .free r ∈ s.log) := by
  have hi := run_accounted h
  exact ⟨hi.released, fun hc _ => hi.mysql_free hc, fun hno _ => hi.all_free hno⟩

end

/-- A handler asks MySQL for one row and then Redis, and gets and reads both results. -/
def bothReleased : List DbEvent :=
  [.app (.dispatch 3 { cmd := 7 } (some 0)) none, .app (.co 0 (.parseMsg (.frame 0 { cmd := 7 }) true)) none,
    .app (.co 0 (.mysqlQuery 1 0)) none, .app .dispatched none,
    .app (.mysqlRsp 0 { transId := 1, errCode := 0, numFields := 1, rows := 1 } (some 0)) none,
    .app (.co 0 (.woke .active (.mysql 0 { transId := 1, errCode := 0, numFields := 1, rows := 1 }))) (some (.mysql 0)),
    .read 0 (.mysql 0),
    .app (.co 0 (.row (.mysql 0 { transId := 1, errCode := 0, numFields := 1, rows := 1 }))) (some (.mysql 0)),
    .app (.co 0 (.redisExecute 0)) none, .app .dispatched none,
    .app (.redisRsp 1 { transId := 1, errCode := 0 } (some 0)) none,
    .app (.co 0 (.woke .active (.redis 1 { transId := 1, errCode := 0 }))) (some (.redis 1)),
    .read 0 (.redis 1), .parsed 0 (.redis 1), .app (.co 0 (.onRequest 0 .nothing 0 none)) none]

/-- Whether the events of `bothReleased` meet the condition. -/
def releaseOk (s : DbApp) : DbEvent → Bool
  | .app (.mysqlRsp q _ target) _ =>
    decide (target = some 0) && decide (s.app.schedule.task 1 = some ⟨0, .wait (.mysql q 1) []⟩)
  | .app (.redisRsp q _ target) _ =>
    decide (target = some 0) && decide (s.app.schedule.task 1 = some ⟨0, .wait (.redis q) []⟩)
  | .app (.co _ (.woke _ (.mysql q rsp))) _ => decide (s.app.loop = .mysql q rsp)
  | .app (.co _ (.woke _ (.redis q rsp))) _ => decide (s.app.loop = .redis q rsp)
  | .app (.co _ act) _ => !act.suspends || decide (s.app.running = some ⟨0, .code []⟩)
  | _ => true

theorem releaseOk_ok {s : DbApp} {e : DbEvent} (h : releaseOk s e = true) : ReleaseOk s e := by
  refine ⟨?_, ?_, ?_, ?_, ?_⟩
  · rintro q rsp target res rfl -
    obtain ⟨rfl, hk⟩ : target = some 0 ∧ s.app.schedule.task 1 = some ⟨0, .wait (.mysql q 1) []⟩ := by
      simpa [releaseOk] using h
    exact ⟨1, 0, q, 1, [], rfl, hk⟩
  · rintro q rsp target res rfl -
    obtain ⟨rfl, hk⟩ : target = some 0 ∧ s.app.schedule.task 1 = some ⟨0, .wait (.redis q) []⟩ := by
      simpa [releaseOk] using h
    exact ⟨1, 0, q, [], rfl, hk⟩
  · rintro p ret q rsp res rfl
    exact ⟨rsp, by simpa [releaseOk] using h⟩
  · rintro p ret q rsp res rfl
    exact ⟨rsp, by simpa [releaseOk] using h⟩
  · rintro p act calls res rfl hs hk
    have : s.app.running = some ⟨0, .code []⟩ := by
      cases act <;> simp_all [releaseOk, Act.suspends]
    rw [hk] at this
    cases this
    rfl

theorem released_run_both : ∃ s, Run ReleaseOk smallConfig bothReleased s ∧
    s.Released ∧ s.log = [.store (.mysql 0), .read (.mysql 0), .read (.mysql 0), .read (.mysql 0), .free (.mysql 0),
      .store (.redis 1), .read (.redis 1), .free (.redis 1)] := by
  have h : (Runs.replay (fun s e => if releaseOk s e = true then s.step e else none) (init smallConfig) bothReleased).map
      DbApp.log = some [.store (.mysql 0), .read (.mysql 0), .read (.mysql 0), .read (.mysql 0), .free (.mysql 0),
        .store (.redis 1), .read (.redis 1), .free (.redis 1)] := by decide +kernel
  obtain ⟨s, hs, hlog⟩ := Option.map_eq_some_iff.mp h
  have hrun : Run ReleaseOk smallConfig bothReleased s :=
    (Runs.Run.of_replay_meets (M := fun s e => releaseOk s e = true) hs).mono fun _ _ _ => releaseOk_ok
  exact ⟨s, hrun, (released_run hrun).1, hlog⟩

/-- A handler asks MySQL and ends by a frame, and then the response comes. -/
def endedBefore : List DbEvent :=
  [.app (.dispatch 3 { cmd := 7 } (some 0)) none, .app (.co 0 (.parseMsg (.frame 0 { cmd := 7 }) true)) none,
    .app (.co 0 (.mysqlQuery 1 0)) none, .app .dispatched none,
    .app (.dispatch 3 { cmd := 21, dstTransId := 1 } (some 0)) none, .app (.co 0 (.woke .active .nothing)) none,
    .app (.co 0 (.onRequest 0 .nothing 0 none)) none, .app .dispatched none,
    .app (.mysqlRsp 0 { transId := 1, errCode := 0, numFields := 1, rows := 1 } none) none, .app .dispatched none]

/-- The result for a transaction that has ended is not released, and nobody has it. -/
theorem ended_result_lost : ∃ t s, Run (fun _ _ => True) smallConfig t s ∧ ¬ s.Released := by
  have h : (Runs.replay DbApp.step (init smallConfig) endedBefore).map
      (fun s => (s.log, s.results, s.parsers, s.app.running)) = some ([.store (.mysql 0)], [], [], none) := by
    decide +kernel
  obtain ⟨s, hs, he⟩ := Option.map_eq_some_iff.mp h
  simp only [Prod.mk.injEq] at he
  obtain ⟨hlog, hres, hpar, hmain⟩ := he
  refine ⟨_, s, Runs.Run.of_replay hs, fun hrel => ?_⟩
  rcases hrel.kept (.mysql 0) (by simp [hlog]) with hf | hun | ⟨p, -, hmem⟩ | ⟨p, -, hmem⟩
  · simp [hlog] at hf
  · simp [unread_of_main hmain] at hun
  · simp [hres] at hmem
  · simp [hpar] at hmem

end DbApp

end GlobalServer
