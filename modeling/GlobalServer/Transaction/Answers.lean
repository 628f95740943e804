import GlobalServer.Transaction.Reply
import GlobalServer.Transaction.Responses

/-!
# By what a wait is ended

`Process` compares a frame's number with the transaction's while that is not
0. It is set by a send and cleared by a timeout only, so a transaction that
has sent nothing takes every frame with its id, and one that has got its
answer takes that again in its next wait, whatever it waits for. A response
of a database is compared with nothing but the id.
-/

namespace GlobalServer

open Schedule (Runs Stops)

namespace App

def askedStep (p : Nat) (r : Option UInt32) : Event → Option UInt32
  | .timer _ target => if target = some p then none else r
  | .dispatch _ frame target => if target = some p ∧ frame.dstTransId = 0 then none else r
  | .co q (.woke _ _) => if q = p then none else r
  | .co q (.sendMsg _ _ _ _ r' _) => if q = p then some r' else r
  | .co q (.callMsg _ _ _ _ r' _ _) => if q = p then some r' else r
  | _ => r

/-- The number of the request that the transaction has sent since its last wait. -/
def asked (t : List Event) (p : Nat) : Option UInt32 := t.foldl (askedStep p) none

/-- The event of the loop that was last handed to the transaction. -/
def resumedBy (t : List Event) (p : Nat) : Option Event :=
  t.foldl (fun r e => match e with
    | .co _ _ => r
    | e => if e.target = some p then some e else r) none

theorem asked_concat (t : List Event) (e : Event) (p : Nat) : asked (t ++ [e]) p = askedStep p (asked t p) e := by
  simp [asked]

theorem resumedBy_concat (t : List Event) (e : Event) (p : Nat) : resumedBy (t ++ [e]) p = match e with
    | .co _ _ => resumedBy t p
    | e => if e.target = some p then some e else resumedBy t p := by
  simp [resumedBy]

/-- The event is the answer to what the wait is for: a frame with the number that was sent, or the response to
the query. -/
def IsAnswer (asked : Option UInt32) : WaitKind → Event → Prop
  | .plain, .dispatch _ frame _ => asked = some frame.reqRandom
  | .msg, .dispatch _ frame _ => asked = some frame.reqRandom
  | .mysql q _, .mysqlRsp q' _ _ => q' = q
  | .redis q, .redisRsp q' _ _ => q' = q
  | _, _ => False

/-- The transaction has sent a request that it waits for, and no query. -/
def AwaitsFrame (t : List Event) (a : App) (p : Nat) : Prop :=
  asked t p ≠ none ∧ ∀ id kind calls, a.schedule.task id = some ⟨p, .wait kind calls⟩ → kind.req = none

/-- No id is given that is in use, a frame is taken only by a transaction that waits for a frame, and a response
finds its own wait or no transaction at all. -/
structure AnswersOk (t : List Event) (a : App) (e : Event) : Prop where
  id : ∀ fd frame p, e = .dispatch fd frame (some p) → frame.dstTransId = 0 →
    a.getTransaction a.transIdGenerator = none
  frame : ∀ fd frame p, e = .dispatch fd frame (some p) → frame.dstTransId ≠ 0 → AwaitsFrame t a p
  mysql : ∀ q rsp p, e = .mysqlRsp q rsp (some p) → a.WaitsMysql q
  redis : ∀ q rsp p, e = .redisRsp q rsp (some p) → a.WaitsRedis q

section
variable {t : List Event} {a a' : App} {e : Event}

theorem isRandom_ne_zero {r : UInt32} (h : isRandom r = true) : r ≠ 0 := by
  rintro rfl
  simp [isRandom] at h

/-- The number of the last request is what the transaction compares with. -/
def AskedOk (t : List Event) (a : App) : Prop :=
  ∀ p r, a.Running p → asked t p = some r → (a.trans p).reqRandom = r ∧ r ≠ 0

theorem asked_of_others {p : Nat} {r₀ : Option UInt32} {r : UInt32} (ht : e.target ≠ some p)
    (hno : ∀ act, e = .co p act → reqRandomOf act = none) (hr : askedStep p r₀ e = some r) : r₀ = some r := by
  unfold askedStep at hr
  split at hr
  · rename_i shown target
    have ht : target ≠ some p := ht
    rwa [if_neg ht] at hr
  · rename_i fd frame target
    rwa [if_neg fun hd => ht hd.1] at hr
  · split at hr
    · cases hr
    · exact hr
  · split at hr
    · rename_i hq
      cases hno _ (by rw [hq])
    · exact hr
  · split at hr
    · rename_i hq
      cases hno _ (by rw [hq])
    · exact hr
  · exact hr

theorem asked_of_elsewhere {p : Nat} {r₀ : Option UInt32} (ht : e.target ≠ some p) (hno : ∀ q act, e ≠ .co q act) :
    askedStep p r₀ e = r₀ := by
  cases e with
  | timer shown target =>
    have ht : target ≠ some p := ht
    simp [askedStep, ht]
  | dispatch fd frame target =>
    have ht : target ≠ some p := ht
    simp [askedStep, ht]
  | co q act => exact absurd rfl (hno q act)
  | _ => rfl

theorem asked_of_frame {p : Nat} {r₀ : Option UInt32} {frame : AppHeadFrame} (hf : e.frame = some frame)
    (hd : frame.dstTransId ≠ 0) : askedStep p r₀ e = r₀ := by
  cases e with
  | dispatch fd frame' target =>
    cases hf
    simp [askedStep, hd]
  | co q act =>
    cases act with
    | processFrame => rfl
    | _ => cases hf
  | _ => cases hf

theorem asked_of_send {p : Nat} {r₀ : Option UInt32} {act : Act} {r : UInt32} (hr : reqRandomOf act = some r) :
    askedStep p r₀ (.co p act) = some r := by
  cases act with
  | sendMsg => cases hr; simp [askedStep]
  | callMsg => cases hr; simp [askedStep]
  | _ => cases hr

theorem askedOk_effect (h : Sound a) (hi : AskedOk t a) (he : Effect a e a') : AskedOk (t ++ [e]) a' := by
  intro p r hp hr
  rw [asked_concat] at hr
  rcases running_back h he hp with hrun | ⟨hn, fd, frame, rfl, hd⟩
  · have hch := trans_effect h he p
    generalize a'.trans p = tr at hch ⊢
    cases hch with
    | same ht hno => exact hi p r hrun (asked_of_others ht hno hr)
    | made hf ht hd hn hcon htype => exact absurd hrun hn
    | answered hf ht hd hp' hrej =>
      rw [asked_of_frame hf (UInt32.pos_iff_ne_zero.mp hd)] at hr
      exact hi p r hrun hr
    | timeout => simp [askedStep] at hr
    | mysql => exact hi p r hrun hr
    | redis => exact hi p r hrun hr
    | sent hs hrand =>
      rw [asked_of_send hs, Option.some.injEq] at hr
      exact ⟨hr, hr ▸ isRandom_ne_zero hrand⟩
    | woke hw => simp [askedStep] at hr
    | row => exact hi p r hrun hr
  · simp [askedStep, hd] at hr

/-- A handler that has been set going with the state `ACTIVE` has got its answer. -/
def ActiveOk (t : List Event) (a : App) : Prop :=
  ∀ p kind calls, a.running = some ⟨p, .wait kind calls⟩ → (a.trans p).state = .active →
    ∃ e, resumedBy t p = some e ∧ IsAnswer (asked t p) kind e

theorem frame_isAnswer (hi : AskedOk t a) {p : Nat} (hp : a.Running p) {kind : WaitKind}
    (hk : asked t p ≠ none ∧ kind.req = none) {frame : AppHeadFrame}
    (hr : rejects (a.trans p) frame = false) (fd : Int)
    (target : Option Nat) : IsAnswer (asked t p) kind (.dispatch fd frame target) := by
  obtain ⟨r, hask⟩ := Option.ne_none_iff_exists'.mp hk.1
  obtain ⟨hrand, h0⟩ := hi p r hp hask
  have he : asked t p = some frame.reqRandom := by
    rw [hask, ← hrand]
    have : ¬ ((a.trans p).reqRandom ≠ 0 ∧ (a.trans p).reqRandom ≠ frame.reqRandom) := by
      simpa [rejects] using hr
    by_contra hne
    exact this ⟨by rw [hrand]; exact h0, fun e => hne (by rw [e])⟩
  cases kind with
  | plain => exact he
  | msg => exact he
  | mysql q fields => cases hk.2
  | redis q => cases hk.2

theorem resumedBy_of_loop {p : Nat} (hno : ∀ q act, e ≠ .co q act) :
    resumedBy (t ++ [e]) p = if e.target = some p then some e else resumedBy t p := by
  rw [resumedBy_concat]
  split
  · rename_i q act
    exact absurd rfl (hno q act)
  · rfl

theorem activeOk_resumed (h : Sound a) (hm : a.Mapped) (hreq : a.RequestsOk) (hask : AskedOk t a)
    (hc : AnswersOk t a e)
    (he : Effect a e a') {p : Nat} {kind : WaitKind} {calls : List Call}
    (hk' : a'.running = some ⟨p, .wait kind calls⟩)
    (hst : (a'.trans p).state = .active) (hnone : a.running = none) (ht : e.target = some p) :
    ∃ e', resumedBy (t ++ [e]) p = some e' ∧ IsAnswer (asked (t ++ [e]) p) kind e' := by
  cases he with
  | fire h1 hu hn hp hw hs =>
    cases ht
    simp at hst
  | @dispatch fd frame target _ hi hf =>
    cases hf with
    | none hf => cases ht
    | reject hd hp hr => cases ht
    | resume h1 hd hp hr hw hs =>
      cases ht
      rw [running_of_runs hs rfl] at hk'
      cases hk'
      have hd : frame.dstTransId ≠ 0 := UInt32.pos_iff_ne_zero.mp hd
      obtain ⟨hne, hkind⟩ := hc.frame _ _ _ rfl hd
      refine ⟨.dispatch fd frame (some p), by simp [resumedBy_concat, Event.target], ?_⟩
      rw [asked_concat, asked_of_frame rfl hd]
      exact frame_isAnswer hask ⟨_, _, hw⟩ ⟨hne, hkind _ _ _ hw⟩ hr _ _
    | store h1 hd hp hr => exact absurd (idle_spec.mp hi).1 h1
    | start h1 hd hn hid hs =>
      rw [running_of_runs hs (by rw [insertActive_schedule]; rfl)] at hk'
      cases hk'
    | lost h1 hd hn => exact absurd (idle_spec.mp hi).1 h1
  | @mysqlRsp q _ id rsp _ _ s hi hq hp hw hs =>
    cases ht
    rw [running_of_runs hs rfl] at hk'
    cases hk'
    obtain ⟨id', p', fields, calls', hw'⟩ := hc.mysql _ _ _ rfl
    cases hreq.own h hm (.mysql _ fields) rfl hq hp hw' hw
    exact ⟨.mysqlRsp q rsp (some p), by simp [resumedBy_concat, Event.target], rfl⟩
  | @redisRsp q _ id rsp _ _ s hi hq hp hw hs =>
    cases ht
    rw [running_of_runs hs rfl] at hk'
    cases hk'
    obtain ⟨id', p', calls', hw'⟩ := hc.redis _ _ _ rfl
    cases hreq.own h hm (.redis _) rfl hq hp hw' hw
    exact ⟨.redisRsp q rsp (some p), by simp [resumedBy_concat, Event.target], rfl⟩
  | nested h1 hw hf => simp [running_of_task h1 hw] at hnone
  | suspend h1 hw ha hp hs => cases ha <;> cases ht
  | exit h1 hw hend hb hs => cases hend <;> cases ht
  | _ => cases ht

theorem activeOk_effect (h : Sound a) (hm : a.Mapped) (hreq : a.RequestsOk) (hask : AskedOk t a) (hi : ActiveOk t a)
    (hc : AnswersOk t a e) (he : Effect a e a') : ActiveOk (t ++ [e]) a' := by
  intro p kind calls hk' hst
  rcases standing_effect h he hk' with ⟨hk, htrans, ht, hno⟩ | ⟨hnone, ht⟩
  · rw [htrans] at hst
    rw [asked_concat, resumedBy_of_loop hno, asked_of_elsewhere (by simp [ht]) hno, if_neg (by simp [ht])]
    exact hi p kind calls hk hst
  · exact activeOk_resumed h hm hreq hask hc he hk' hst hnone ht

end

section
variable {c : Config} {t : List Event} {a : App}

theorem run_askedOk {C : List Event → App → Event → Prop} (h : Run C c t a) : AskedOk t a := by
  refine run_invariant AskedOk ?_ (fun _ _ _ _ hs hi _ he => askedOk_effect hs hi he) h
  rintro p r ⟨id, pc, hk⟩
  simp [init] at hk

theorem run_activeOk (h : Run AnswersOk c t a) : ActiveOk t a := by
  induction h with
  | nil =>
    intro p kind calls hk
    simp [running, init, Schedule.init] at hk
  | @snoc t a e a' hr hc hst ih =>
    have hs := run_sound hr
    have hm := mapped_run hr fun _ _ _ hc => hc.id
    exact activeOk_effect hs hm (run_requestsOk hr) (run_askedOk hr) ih hc (step_effect hs hst)

/-- `Wait` returns `ACTIVE` to the transaction, and what has set it going is the answer to what it waits for. -/
def ActiveByAnswer (c : Config) (t : List Event) (p : Nat) : Prop :=
  ∃ a kind calls e, (init c).replay t = some a ∧ a.running = some ⟨p, .wait kind calls⟩ ∧ resumedBy t p = some e ∧
    IsAnswer (asked t p) kind e

/-- As long as frames come only to transactions that wait for one, and responses to the waits they are for,
every wait that is ended as `ACTIVE` is ended by its answer. -/
theorem active_by_answer (h : Run AnswersOk c t a) :
    ∀ t₁ p seen t₂, t = t₁ ++ .co p (.woke .active seen) :: t₂ → ActiveByAnswer c t₁ p := by
  intro t₁ p seen t₂ ht
  obtain ⟨a₁, a₂, h₁, -, hst⟩ := h.event t₁ _ t₂ ht
  cases step_effect (run_sound h₁) hst with
  | woke hc hk hr hw hs =>
    have hk := running_of_task hc hk
    have hst : (a₁.trans p).state = .active := by
      unfold waitReturn at hr
      split at hr
      · assumption
      · cases hr
    obtain ⟨e, he, hans⟩ := run_activeOk h₁ p _ _ hk hst
    exact ⟨a₁, _, _, e, run_replay h₁, hk, he, hans⟩
  | suspend hc hk ha hp hs => cases ha
  | exit hc hk he hb hs => cases he

end

/-- Another server's answer is waited for and taken, and after it the response to a query. -/
def bothAnswered : List Event :=
  answeredByFrame ++
    [.co 0 (.mysqlQuery 1 0), .dispatched, .mysqlRsp 0 { transId := 1, errCode := 0, numFields := 1, rows := 0 } (some 0),
      .co 0 (.woke .active (.mysql 0 { transId := 1, errCode := 0, numFields := 1, rows := 0 }))]

/-- Whether the events of `bothAnswered` meet the condition. -/
def answersOk (t : List Event) (a : App) : Event → Bool
  | .dispatch _ frame target =>
    if frame.dstTransId = 0 then decide (a.getTransaction a.transIdGenerator = none)
    else decide (target = some 0) && (asked t 0).isSome && decide (a.schedule.task 1 = some ⟨0, .wait .msg []⟩)
  | .mysqlRsp q _ _ => decide (a.schedule.task 1 = some ⟨0, .wait (.mysql q 1) []⟩)
  | .redisRsp _ _ _ => false
  | _ => true

theorem answersOk_ok {t : List Event} {a : App} {e : Event} (hs : Sound a) (h : answersOk t a e = true) :
    AnswersOk t a e := by
  refine ⟨?_, ?_, ?_, ?_⟩
  · rintro fd frame p rfl hd
    simpa [answersOk, hd] using h
  · rintro fd frame p rfl hd
    have h : (p = 0 ∧ (asked t 0).isSome) ∧ a.schedule.task 1 = some ⟨0, .wait .msg []⟩ := by
      simpa [answersOk, hd] using h
    obtain ⟨⟨rfl, hask⟩, hk⟩ := h
    refine ⟨Option.isSome_iff_ne_none.mp hask, fun id kind calls hk' => ?_⟩
    obtain rfl : id = 1 := (hs.owner id _ hk').2.1.symm.trans (hs.owner 1 _ hk).2.1
    cases hk.symm.trans hk'
    rfl
  · rintro q rsp p rfl
    exact ⟨1, 0, 1, [], by simpa [answersOk] using h⟩
  · rintro q rsp p rfl
    cases h

theorem active_by_answer_both : ∃ a, Run AnswersOk smallConfig bothAnswered a ∧
    ∀ t₁ p seen t₂, bothAnswered = t₁ ++ .co p (.woke .active seen) :: t₂ → ActiveByAnswer smallConfig t₁ p := by
  obtain ⟨a, ha⟩ : ∃ a, replayIf answersOk [] (init smallConfig) bothAnswered = some a :=
    Option.isSome_iff_exists.mp (by decide +kernel)
  have hrun : Run AnswersOk smallConfig ([] ++ bothAnswered) a := replayIf_run (fun _ _ _ => answersOk_ok) .nil ha
  exact ⟨a, hrun, active_by_answer hrun⟩

/-- A handler has asked MySQL, and takes a frame that has nothing but its transaction's id. -/
def frameForQuery : List Event :=
  [.dispatch 3 { cmd := 7 } (some 0), .co 0 (.parseMsg (.frame 0 { cmd := 7 }) true), .co 0 (.mysqlQuery 1 0), .dispatched,
    .dispatch 3 { cmd := 21, dstTransId := 1 } (some 0)]

/-- The query's wait returns `ACTIVE` by that frame. -/
theorem query_ended_by_frame : ∃ t a, Run (fun _ _ _ => True) smallConfig t a ∧
    ¬ ∀ t₁ p seen t₂, t = t₁ ++ .co p (.woke .active seen) :: t₂ → ActiveByAnswer smallConfig t₁ p := by
  obtain ⟨a, ha⟩ : ∃ a, (init smallConfig).replay (frameForQuery ++ [.co 0 (.woke .active .nothing)]) = some a :=
    Option.isSome_iff_exists.mp (by decide +kernel)
  refine ⟨_, a, replay_run (fun _ _ _ _ => trivial) .nil ha, fun hall => ?_⟩
  obtain ⟨b, kind, calls, e, hb, hk, he, hans⟩ := hall frameForQuery 0 .nothing [] rfl
  have hkind : ((init smallConfig).replay frameForQuery).bind App.running = some ⟨0, .wait (.mysql 0 1) []⟩ := by decide
  rw [hb, Option.bind_some, hk] at hkind
  cases hkind
  obtain rfl : .dispatch 3 { cmd := 21, dstTransId := 1 } (some 0) = e := Option.some.inj he
  exact hans

end App

end GlobalServer
