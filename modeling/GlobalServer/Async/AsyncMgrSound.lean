import GlobalServer.Async.AsyncMgr
import Mathlib.Algebra.BigOperators.Group.Finset.Piecewise
import Mathlib.Algebra.Order.BigOperators.Group.Finset

/-!
# Every accepted request is answered once, in order

What the threads have among them is read off the places where they stand: the
requests of one worker, answered, in its hand and in its queue, are the ones
submitted to it, in their order. That a request in a queue is not forgotten
rests on who may be asleep: a worker sleeps over a nonempty queue only while
AddRequest is about to wake it. The bound of the queues rests on nothing in
the code once AddRequest has waited.
-/

namespace GlobalServer.Async

open Runs

variable {Req Rsp Db : Type}

/-! ## What the threads have -/

/-- The request of an AddRequest that has not returned. -/
def MainAt.inCall : MainAt Req Rsp → List (Job Req)
  | .lock _ j | .check _ j | .asleep _ j | .woken _ j | .push _ j | .unlock _ j | .notify _ j => [j]
  | _ => []

/-- Of these, the one that is in the queue already. -/
def MainAt.pushed : MainAt Req Rsp → List (Job Req)
  | .unlock _ j | .notify _ j => [j]
  | _ => []

/-- The call of AddRequest is with the worker of its order id. -/
def MainAt.GoesTo (workCnt : Nat) : MainAt Req Rsp → Prop
  | .lock i j | .check i j | .asleep i j | .woken i j | .push i j | .unlock i j | .notify i j => j.orderid % workCnt = i
  | _ => True

def MainAt.inPick : MainAt Req Rsp → List (Answer Req Rsp)
  | .pickUnlock rsp => rsp.toList
  | _ => []

/-- The request that a worker has taken and not answered. -/
def RunAt.hand : RunAt Req Rsp → List (Job Req)
  | .unlock req | .notify req => req.toList
  | .proccss j => [j]
  | .rspLock a | .rspPush a => [a.job]
  | _ => []

/-- The response that a worker has not put into the response queue yet. -/
def RunAt.result : RunAt Req Rsp → List (Answer Req Rsp)
  | .rspLock a | .rspPush a => [a]
  | _ => []

namespace AsyncMgr

variable (s : AsyncMgr Req Rsp)

/-- The requests that AddRequest has put into a queue, in the order of the calls. -/
def submitted : List (Job Req) := s.accepted ++ s.main.pushed

/-- The requests with which AddRequest has begun. -/
def taken : List (Job Req) := s.accepted ++ s.main.inCall

def responses : List (Answer Req Rsp) := s.picked ++ s.main.inPick ++ s.rspQueue

end AsyncMgr

/-- Among requests those that go to worker `idx`. -/
def forWorker (workCnt idx : Nat) (l : List (Job Req)) : List (Job Req) := l.filter fun j => j.orderid % workCnt = idx

def byWorker (workCnt idx : Nat) (l : List (Answer Req Rsp)) : List (Answer Req Rsp) :=
  l.filter fun a => a.job.orderid % workCnt = idx

/-! ## The property -/

/-- The threads going on by themselves: no call begins, and nobody wakes without a signal. -/
def Event.goesOn : Event Req Db → Prop
  | .main | .run _ _ => True
  | _ => False

def AsyncMgr.AtRest (proccss : Db → Req → Option Rsp) (s : AsyncMgr Req Rsp) : Prop :=
  ∀ e : Event Req Db, e.goesOn → step proccss s e = none

/-- What the callers of a manager rely on. -/
structure Served (proccss : Db → Req → Option Rsp) (s : AsyncMgr Req Rsp) : Prop where
  alive : s.main ≠ .fault ∧ ∀ idx, (s.work idx).run ≠ .fault
  bounded : ∀ idx, (s.work idx).queue.length ≤ s.queueMaxSize
  /-- Requests with one order id are executed in the order in which they were submitted, -/
  executed : ∀ o, ((s.executed.filter fun a => a.job.orderid = o).map Answer.job) <+:
    s.submitted.filter fun j => j.orderid = o
  /-- and answered in this order. -/
  answered : ∀ o, ((s.answered.filter fun a => a.job.orderid = o).map Answer.job) <+:
    s.submitted.filter fun j => j.orderid = o
  /-- A response is what its request has got, and no request has two. -/
  right : ∀ a ∈ s.answered, ∃ db, proccss db a.job.req = some a.rsp
  distinct : (s.submitted.map Job.no).Nodup
  once : (s.answered.map fun a => a.job.no).Nodup
  /-- Pick returns the responses one after the other. -/
  picked : s.responses = s.answered
  /-- The threads left alone come to rest, -/
  stops : ∃ n, ∀ t s', Run (fun s e s' => step proccss s e = some s') (fun _ _ e => e.goesOn) s t s' → t.length ≤ n
  /-- and at rest each accepted request has been answered. -/
  rest : s.AtRest proccss → ∀ j ∈ s.accepted, j ∈ s.answered.map Answer.job

/-- An AddRequest that has waited goes on with room in its queue. -/
def MainAt.Keeps (s : AsyncMgr Req Rsp) : MainAt Req Rsp → Prop
  | .woken idx _ => (s.work idx).queue.length < s.queueMaxSize
  | _ => True

/-- What is asked of the database does not end in a null result. -/
def RunAt.Keeps (proccss : Db → Req → Option Rsp) (db : Db) : RunAt Req Rsp → Prop
  | .proccss j => (proccss db j.req).isSome
  | _ => True

/-- What the code leaves to chance goes well; the number of a worker also has to fit an `int`. -/
def Event.Keeps (proccss : Db → Req → Option Rsp) (s : AsyncMgr Req Rsp) : Event Req Db → Prop
  | .addRequest orderid _ => orderid % s.workCnt < 0x80000000
  | .main => s.main.Keeps s
  | .run idx db => (s.work idx).run.Keeps proccss db
  | _ => True

/-! ## What a step does -/

theorem MainAt.signalled_eq (idx : Nat) (m : MainAt Req Rsp) :
    m.signalled idx = m ∨ ∃ j, m = .asleep idx j ∧ m.signalled idx = .woken idx j := by
  cases m with
  | asleep i j =>
    by_cases h : i = idx
    · subst h
      exact .inr ⟨j, rfl, if_pos rfl⟩
    · exact .inl (if_neg h)
  | _ => exact .inl rfl

theorem RunAt.woken_congr {α : Type} (f : RunAt Req Rsp → α) (hf : f .woken = f .asleep) {r r' : RunAt Req Rsp}
    (h : r' = r ∨ r = .asleep ∧ r' = .woken) : f r' = f r := by
  rcases h with h | ⟨h, h'⟩
  · rw [h]
  · rw [h, h', hf]

theorem RunAt.signalled_eq (r : RunAt Req Rsp) : r.signalled = r ∨ r = .asleep ∧ r.signalled = .woken := by
  cases r with
  | asleep => exact .inr ⟨rfl, rfl⟩
  | _ => exact .inl rfl

namespace AsyncMgr

variable {s s' : AsyncMgr Req Rsp} {proccss : Db → Req → Option Rsp} {idx orderid : Nat} {req : Req} {db : Db}

@[simp] theorem setWork_self (w : Work Req Rsp) : (s.setWork idx w).work idx = w := Function.update_self ..

theorem setWork_of_ne {i : Nat} (h : i ≠ idx) (w : Work Req Rsp) : (s.setWork idx w).work i = s.work i :=
  Function.update_of_ne h ..

/-- What no step of a worker changes. -/
structure RunFrame (s s' : AsyncMgr Req Rsp) (idx : Nat) : Prop where
  queueMaxSize : s'.queueMaxSize = s.queueMaxSize
  workCnt : s'.workCnt = s.workCnt
  calls : s'.calls = s.calls
  accepted : s'.accepted = s.accepted
  picked : s'.picked = s.picked
  main : s'.main = s.main ∨ ∃ j, s.main = .asleep idx j ∧ s'.main = .woken idx j
  work : ∀ i, i ≠ idx → s'.work i = s.work i

theorem RunFrame.congr {α : Type} (hf : RunFrame s s' idx) (f : MainAt Req Rsp → α)
    (h : ∀ j, f (.woken idx j) = f (.asleep idx j)) : f s'.main = f s.main := by
  rcases hf.main with hm | ⟨j, hm, hm'⟩
  · rw [hm]
  · rw [hm, hm', h]

theorem runStep_frame (h : s.runStep proccss idx db = some s') : RunFrame s s' idx := by
  have hw : ∀ (w : Work Req Rsp) i, i ≠ idx → (s.setWork idx w).work i = s.work i := fun w i hi => setWork_of_ne hi w
  unfold runStep at h
  cases hr : (s.work idx).run <;> simp only [hr] at h
  case lock | woken | rspLock =>
    obtain ⟨-, h⟩ := Option.ite_none_right_eq_some.mp h
    cases h
    exact ⟨rfl, rfl, rfl, rfl, rfl, .inl rfl, hw _⟩
  case check =>
    split at h <;> cases h <;> exact ⟨rfl, rfl, rfl, rfl, rfl, .inl rfl, hw _⟩
  case proccss =>
    split at h <;> cases h <;> exact ⟨rfl, rfl, rfl, rfl, rfl, .inl rfl, hw _⟩
  case notify =>
    cases h
    exact ⟨rfl, rfl, rfl, rfl, rfl, s.main.signalled_eq idx, hw _⟩
  case asleep | fault => cases h
  all_goals
    cases h
    exact ⟨rfl, rfl, rfl, rfl, rfl, .inl rfl, hw _⟩

/-- What a step of a worker does with requests and responses. -/
inductive RunEffect (proccss : Db → Req → Option Rsp) (s s' : AsyncMgr Req Rsp) (w w' : Work Req Rsp) : Prop
  | moves (requests : w'.run.hand ++ w'.queue = w.run.hand ++ w.queue) (result : w'.run.result = w.run.result)
      (executed : s'.executed = s.executed) (answered : s'.answered = s.answered) (rspQueue : s'.rspQueue = s.rspQueue)
  | executes (a : Answer Req Rsp) (db : Db) (right : proccss db a.job.req = some a.rsp) (hand : w.run.hand = [a.job])
      (hand' : w'.run.hand = [a.job]) (result : w.run.result = []) (result' : w'.run.result = [a])
      (queue : w'.queue = w.queue) (executed : s'.executed = s.executed ++ [a]) (answered : s'.answered = s.answered)
      (rspQueue : s'.rspQueue = s.rspQueue)
  | answers (a : Answer Req Rsp) (hand : w.run.hand = [a.job]) (hand' : w'.run.hand = []) (result : w.run.result = [a])
      (result' : w'.run.result = []) (queue : w'.queue = w.queue) (executed : s'.executed = s.executed)
      (answered : s'.answered = s.answered ++ [a]) (rspQueue : s'.rspQueue = s.rspQueue ++ [a])

theorem runStep_effect (hk : Event.Keeps proccss s (.run idx db)) (h : s.runStep proccss idx db = some s') :
    RunEffect proccss s s' (s.work idx) (s'.work idx) ∧ (s'.work idx).queue <:+ (s.work idx).queue ∧
      (s'.work idx).run ≠ .fault := by
  unfold runStep at h
  unfold Event.Keeps at hk
  cases hr : (s.work idx).run <;> simp only [hr, RunAt.Keeps] at h hk
  case lock | woken | rspLock =>
    obtain ⟨-, h⟩ := Option.ite_none_right_eq_some.mp h
    cases h
    exact ⟨.moves (by simp [hr, RunAt.hand]) (by simp [hr, RunAt.result]) rfl rfl rfl, by simp, by simp⟩
  case check =>
    split at h <;> cases h <;>
      exact ⟨.moves (by simp [hr, RunAt.hand]) (by simp [hr, RunAt.result]) rfl rfl rfl, by simp, by simp⟩
  case asleep | fault => cases h
  case pop =>
    cases h
    refine ⟨.moves ?_ (by simp [hr, RunAt.result]) rfl rfl rfl, by simpa using List.tail_suffix _, by simp⟩
    rw [setWork_self, hr]
    cases (s.work idx).queue <;> rfl
  case unlock req =>
    cases h
    exact ⟨.moves (by simp [hr, RunAt.hand]) (by simp [hr, RunAt.result]) rfl rfl rfl, by simp, by simp⟩
  case notify req =>
    cases h
    refine ⟨.moves ?_ ?_ rfl rfl rfl, by simp, ?_⟩ <;> cases req <;> simp [hr, RunAt.hand, RunAt.result]
  case proccss j =>
    obtain ⟨rsp, hp⟩ := Option.isSome_iff_exists.mp hk
    rw [hp] at h
    cases h
    exact ⟨.executes ⟨j, rsp⟩ db hp (by simp [hr, RunAt.hand]) (by simp [RunAt.hand]) (by simp [hr, RunAt.result])
      (by simp [RunAt.result]) (by simp) rfl rfl rfl, by simp, by simp⟩
  case rspPush a =>
    cases h
    exact ⟨.answers a (by simp [hr, RunAt.hand]) (by simp [RunAt.hand]) (by simp [hr, RunAt.result])
      (by simp [RunAt.result]) (by simp) rfl rfl rfl, by simp, by simp⟩
  case rspUnlock =>
    cases h
    exact ⟨.moves (by simp [hr, RunAt.hand]) (by simp [hr, RunAt.result]) rfl rfl rfl, by simp, by simp⟩

/-- What a step of the main thread leaves as it is: it moves its request and the responses on. -/
structure MainFrame (s s' : AsyncMgr Req Rsp) : Prop where
  queueMaxSize : s'.queueMaxSize = s.queueMaxSize
  workCnt : s'.workCnt = s.workCnt
  calls : s'.calls = s.calls
  taken : s'.taken = s.taken
  responses : s'.responses = s.responses
  executed : s'.executed = s.executed
  answered : s'.answered = s.answered
  run : ∀ i, (s'.work i).run = (s.work i).run ∨ (s.work i).run = .asleep ∧ (s'.work i).run = .woken
  goesTo : s.main.GoesTo s.workCnt → s'.main.GoesTo s.workCnt
  alive : s'.main ≠ .fault

inductive MainEffect (s s' : AsyncMgr Req Rsp) : Prop
  | moves (submitted : s'.submitted = s.submitted) (queue : ∀ i, (s'.work i).queue = (s.work i).queue)
  | pushes (idx : Nat) (j : Job Req) (main : s.main = .push idx j) (submitted : s'.submitted = s.submitted ++ [j])
      (queue : (s'.work idx).queue = (s.work idx).queue ++ [j])
      (others : ∀ i, i ≠ idx → (s'.work i).queue = (s.work i).queue)

theorem setWork_run (w : Work Req Rsp) (i : Nat) (h : w.run = (s.work idx).run) :
    ((s.setWork idx w).work i).run = (s.work i).run := by
  by_cases hi : i = idx
  · rw [hi, setWork_self, h]
  · rw [setWork_of_ne hi]

theorem setWork_queue (w : Work Req Rsp) (i : Nat) (h : w.queue = (s.work idx).queue) :
    ((s.setWork idx w).work i).queue = (s.work i).queue := by
  by_cases hi : i = idx
  · rw [hi, setWork_self, h]
  · rw [setWork_of_ne hi]

theorem mainStep_effect (h : s.mainStep = some s') : MainFrame s s' ∧ MainEffect s s' := by
  obtain ⟨max, cnt, work, mutex, rspQueue, main, calls, accepted, executed, answered, picked⟩ := s
  cases main <;> simp only [mainStep] at h
  case idle | asleep | fault => cases h
  case lock i j | woken i j =>
    obtain ⟨-, h⟩ := Option.ite_none_right_eq_some.mp h
    cases h
    exact ⟨⟨rfl, rfl, rfl, rfl, rfl, rfl, rfl, fun k => .inl (setWork_run _ k rfl), id, by simp⟩,
      .moves rfl fun k => setWork_queue _ k rfl⟩
  case check i j =>
    split at h
    · cases h
      exact ⟨⟨rfl, rfl, rfl, rfl, rfl, rfl, rfl, fun k => .inl (setWork_run _ k rfl), id, by simp⟩,
        .moves rfl fun k => setWork_queue _ k rfl⟩
    · cases h
      exact ⟨⟨rfl, rfl, rfl, rfl, rfl, rfl, rfl, fun k => .inl rfl, id, by simp⟩, .moves rfl fun k => rfl⟩
  case push i j =>
    cases h
    refine ⟨⟨rfl, rfl, rfl, rfl, rfl, rfl, rfl, fun k => .inl (setWork_run _ k rfl), id, by simp⟩,
      .pushes i j rfl ?_ (by simp) fun k hk => by rw [setWork_of_ne hk]⟩
    simp [submitted, MainAt.pushed, setWork]
  case unlock i j =>
    cases h
    exact ⟨⟨rfl, rfl, rfl, rfl, rfl, rfl, rfl, fun k => .inl (setWork_run _ k rfl), id, by simp⟩,
      .moves rfl fun k => setWork_queue _ k rfl⟩
  case notify i j =>
    cases h
    refine ⟨⟨rfl, rfl, rfl, ?_, rfl, rfl, rfl, fun k => ?_, fun _ => trivial, by simp⟩,
      .moves ?_ fun k => setWork_queue _ k rfl⟩
    · simp [taken, MainAt.inCall]
    · by_cases hk : k = i
      · rw [hk, setWork_self]
        exact RunAt.signalled_eq _
      · exact .inl (by rw [setWork_of_ne hk])
    · simp [submitted, MainAt.pushed]
  case pickLock =>
    obtain ⟨-, h⟩ := Option.ite_none_right_eq_some.mp h
    cases h
    exact ⟨⟨rfl, rfl, rfl, rfl, rfl, rfl, rfl, fun k => .inl rfl, id, by simp⟩, .moves rfl fun k => rfl⟩
  case pickPop =>
    cases h
    refine ⟨⟨rfl, rfl, rfl, rfl, ?_, rfl, rfl, fun k => .inl rfl, id, by simp⟩, .moves rfl fun k => rfl⟩
    cases rspQueue <;> simp [responses, MainAt.inPick]
  case pickUnlock rsp =>
    cases h
    refine ⟨⟨rfl, rfl, rfl, rfl, ?_, rfl, rfl, fun k => .inl rfl, id, by simp⟩, .moves rfl fun k => rfl⟩
    simp [responses, MainAt.inPick]

/-! ## The requests and the responses of each worker -/

theorem forWorker_concat (n idx : Nat) (l : List (Job Req)) (j : Job Req) :
    forWorker n idx (l ++ [j]) = forWorker n idx l ++ if j.orderid % n = idx then [j] else [] := by
  by_cases h : j.orderid % n = idx <;> simp [forWorker, h]

theorem byWorker_concat (n idx : Nat) (l : List (Answer Req Rsp)) (a : Answer Req Rsp) :
    byWorker n idx (l ++ [a]) = byWorker n idx l ++ if a.job.orderid % n = idx then [a] else [] := by
  by_cases h : a.job.orderid % n = idx <;> simp [byWorker, h]

structure Accounts (proccss : Db → Req → Option Rsp) (s : AsyncMgr Req Rsp) : Prop where
  goesTo : s.main.GoesTo s.workCnt
  numbers : s.taken.map Job.no = List.range s.calls
  workers : s.workCnt = 0 → s.calls = 0
  requests : ∀ idx, (byWorker s.workCnt idx s.answered).map Answer.job ++ ((s.work idx).run.hand ++ (s.work idx).queue) =
    forWorker s.workCnt idx s.submitted
  results : ∀ idx, byWorker s.workCnt idx s.executed = byWorker s.workCnt idx s.answered ++ (s.work idx).run.result
  responses : s.responses = s.answered
  right : ∀ a ∈ s.executed, ∃ db, proccss db a.job.req = some a.rsp

theorem Accounts.mainStep (ha : Accounts proccss s) (h : s.mainStep = some s') : Accounts proccss s' := by
  obtain ⟨hf, he⟩ := mainStep_effect h
  have hhand : ∀ i, (s'.work i).run.hand = (s.work i).run.hand := fun i => RunAt.woken_congr RunAt.hand rfl (hf.run i)
  have hresult : ∀ i, (s'.work i).run.result = (s.work i).run.result := fun i => RunAt.woken_congr RunAt.result rfl (hf.run i)
  refine ⟨?_, ?_, ?_, fun idx => ?_, fun idx => ?_, ?_, ?_⟩
  · rw [hf.workCnt]
    exact hf.goesTo ha.goesTo
  · rw [hf.taken, hf.calls]
    exact ha.numbers
  · rw [hf.workCnt, hf.calls]
    exact ha.workers
  · rw [hf.answered, hf.workCnt, hhand]
    cases he with
    | moves hs hq => rw [hs, hq, ha.requests]
    | pushes i j hm hs hq ho =>
      have hj : j.orderid % s.workCnt = i := by
        have := ha.goesTo
        rwa [hm] at this
      rw [hs, forWorker_concat, ← ha.requests, hj]
      by_cases hi : i = idx
      · rw [if_pos hi, ← hi, hq]
        simp only [List.append_assoc]
      · rw [if_neg hi, ho idx (Ne.symm hi), List.append_nil]
  · rw [hf.executed, hf.answered, hf.workCnt, hresult, ha.results]
  · rw [hf.responses, hf.answered]
    exact ha.responses
  · rw [hf.executed]
    exact ha.right

theorem Accounts.hand (ha : Accounts proccss s) {j : Job Req} (h : j ∈ (s.work idx).run.hand) :
    j.orderid % s.workCnt = idx := by
  have hm : j ∈ forWorker s.workCnt idx s.submitted := by
    rw [← ha.requests]
    exact List.mem_append_right _ (List.mem_append_left _ h)
  exact of_decide_eq_true (List.mem_filter.mp hm).2

theorem Accounts.byWorker_hand (ha : Accounts proccss s) {a : Answer Req Rsp} (h : (s.work idx).run.hand = [a.job])
    (i : Nat) (l : List (Answer Req Rsp)) :
    byWorker s.workCnt i (l ++ [a]) = byWorker s.workCnt i l ++ if i = idx then [a] else [] := by
  have hj : a.job ∈ (s.work idx).run.hand := h ▸ List.mem_singleton_self _
  rw [byWorker_concat, ha.hand hj]
  simp only [eq_comm]

theorem Accounts.runStep (ha : Accounts proccss s) (hk : Event.Keeps proccss s (.run idx db))
    (h : s.runStep proccss idx db = some s') : Accounts proccss s' := by
  have hf := runStep_frame h
  obtain ⟨he, -, -⟩ := runStep_effect hk h
  have hpushed : s'.main.pushed = s.main.pushed := hf.congr MainAt.pushed fun _ => rfl
  have hcall : s'.main.inCall = s.main.inCall := hf.congr MainAt.inCall fun _ => rfl
  have hpick : s'.main.inPick = s.main.inPick := hf.congr MainAt.inPick fun _ => rfl
  have hsub : s'.submitted = s.submitted := by rw [submitted, hf.accepted, hpushed, submitted]
  refine ⟨?_, ?_, ?_, fun i => ?_, fun i => ?_, ?_, ?_⟩
  · rw [hf.workCnt, hf.congr (MainAt.GoesTo s.workCnt) fun _ => rfl]
    exact ha.goesTo
  · rw [taken, hf.accepted, hcall, hf.calls]
    exact ha.numbers
  · rw [hf.workCnt, hf.calls]
    exact ha.workers
  · rw [hsub, hf.workCnt, ← ha.requests]
    by_cases hi : i = idx
    · subst hi
      cases he with
      | moves hq hr _ hd _ => rw [hd, hq]
      | executes a db hright hh hh' hr hr' hq _ hd _ => rw [hd, hh, hh', hq]
      | answers a hh hh' hr hr' hq _ hd _ =>
        rw [hd, ha.byWorker_hand hh, if_pos rfl, hh, hh', hq]
        simp
    · rw [hf.work i hi]
      cases he with
      | moves _ _ _ hd _ => rw [hd]
      | executes _ _ _ _ _ _ _ _ _ hd _ => rw [hd]
      | answers a hh _ _ _ _ _ hd _ =>
        rw [hd, ha.byWorker_hand hh, if_neg hi, List.append_nil]
  · rw [hf.workCnt]
    by_cases hi : i = idx
    · subst hi
      cases he with
      | moves _ hr hx hd _ => rw [hx, hd, hr, ha.results]
      | executes a db _ hh _ hr hr' _ hx hd _ =>
        rw [hx, hd, hr', ha.byWorker_hand hh, if_pos rfl, ha.results, hr, List.append_nil]
      | answers a hh _ hr hr' _ hx hd _ =>
        rw [hx, hd, hr', ha.byWorker_hand hh, if_pos rfl, ha.results, hr, List.append_nil]
    · rw [hf.work i hi]
      cases he with
      | moves _ _ hx hd _ => rw [hx, hd, ha.results]
      | executes a _ _ hh _ _ _ _ hx hd _ =>
        rw [hx, hd, ha.byWorker_hand hh, if_neg hi, List.append_nil, ha.results]
      | answers a hh _ _ _ _ hx hd _ =>
        rw [hx, hd, ha.byWorker_hand hh, if_neg hi, List.append_nil, ha.results]
  · have hr := ha.responses
    simp only [AsyncMgr.responses, hf.picked, hpick] at hr ⊢
    cases he with
    | moves _ _ _ hd hq => rw [hq, hd, hr]
    | executes _ _ _ _ _ _ _ _ _ hd hq => rw [hq, hd, hr]
    | answers a _ _ _ _ _ _ hd hq => rw [hq, hd, ← List.append_assoc, hr]
  · cases he with
    | moves _ _ hx _ _ => exact hx ▸ ha.right
    | executes a db hright _ _ _ _ _ hx _ _ =>
      rw [hx]
      intro b hb
      rcases List.mem_append.mp hb with hb | hb
      · exact ha.right b hb
      · obtain rfl := List.mem_singleton.mp hb
        exact ⟨db, hright⟩
    | answers _ _ _ _ _ _ hx _ _ => exact hx ▸ ha.right

theorem addRequest_cases (hk : Event.Keeps proccss s (.addRequest orderid req : Event Req Db)) :
    s.addRequest orderid req = s ∨ 0 < s.workCnt ∧ s.addRequest orderid req =
      { s with main := .lock (orderid % s.workCnt) ⟨s.calls, orderid, req⟩, calls := s.calls + 1 } := by
  unfold addRequest
  split
  · exact .inl rfl
  · rename_i hn
    exact .inr ⟨Nat.pos_of_ne_zero hn, if_neg (Nat.not_le.mpr hk)⟩

theorem Accounts.addRequest (ha : Accounts proccss s) (hm : s.main = .idle)
    (hk : Event.Keeps proccss s (.addRequest orderid req : Event Req Db)) : Accounts proccss (s.addRequest orderid req) := by
  rcases addRequest_cases hk with he | ⟨hn, he⟩ <;> rw [he]
  · exact ha
  · have hs : s.submitted = s.accepted := by simp [submitted, hm, MainAt.pushed]
    have ht : s.taken = s.accepted := by simp [taken, hm, MainAt.inCall]
    have hp : s.responses = s.picked ++ s.rspQueue := by simp [AsyncMgr.responses, hm, MainAt.inPick]
    refine ⟨rfl, ?_, ?_, fun i => ?_, ha.results, ?_, ha.right⟩
    · have hnum := ha.numbers
      rw [ht] at hnum
      simp [taken, MainAt.inCall, List.range_succ, hnum]
    · exact fun h0 => absurd h0 hn.ne'
    · rw [ha.requests i, hs]
      simp [submitted, MainAt.pushed]
    · rw [← ha.responses, hp]
      simp [AsyncMgr.responses, MainAt.inPick]

theorem Accounts.congr (ha : Accounts proccss s) (work : Nat → Work Req Rsp) {m : MainAt Req Rsp}
    (hg : m.GoesTo s.workCnt) (hc : m.inCall = s.main.inCall) (hp : m.pushed = s.main.pushed)
    (hi : m.inPick = s.main.inPick) (hq : ∀ i, (work i).queue = (s.work i).queue)
    (hr : ∀ i, (work i).run = (s.work i).run ∨ (s.work i).run = .asleep ∧ (work i).run = .woken) :
    Accounts proccss { s with main := m, work } := by
  refine ⟨hg, ?_, ha.workers, fun i => ?_, fun i => ?_, ?_, ha.right⟩
  · rw [← ha.numbers, taken, taken, hc]
  · have h := ha.requests i
    rw [show ({ s with main := m, work } : AsyncMgr Req Rsp).submitted = s.submitted from by rw [submitted, submitted, hp],
      ← h, hq]
    rw [RunAt.woken_congr RunAt.hand rfl (hr i)]
  · rw [ha.results i, RunAt.woken_congr RunAt.result rfl (hr i)]
  · rw [← ha.responses, AsyncMgr.responses, AsyncMgr.responses, hi]

theorem Accounts.step (ha : Accounts proccss s) {e : Event Req Db} (hk : e.Keeps proccss s)
    (h : Async.step proccss s e = some s') : Accounts proccss s' := by
  cases e <;> simp only [Async.step] at h
  case addRequest o r =>
    split at h <;> cases h
    rename_i hm
    exact ha.addRequest hm hk
  case pick =>
    split at h <;> cases h
    rename_i hm
    exact ha.congr s.work trivial (by rw [hm]; rfl) (by rw [hm]; rfl) (by rw [hm]; rfl) (fun _ => rfl)
      fun _ => .inl rfl
  case main => exact ha.mainStep h
  case run i db =>
    obtain ⟨-, h⟩ := Option.ite_none_right_eq_some.mp h
    exact ha.runStep hk h
  case wakeMain =>
    split at h <;> cases h
    rename_i i j hm
    have hg := ha.goesTo
    rw [hm] at hg
    exact ha.congr s.work hg (by rw [hm]; rfl) (by rw [hm]; rfl) (by rw [hm]; rfl) (fun _ => rfl)
      fun _ => .inl rfl
  case wakeRun i =>
    split at h <;> cases h
    rename_i hr
    refine ha.congr _ ha.goesTo rfl rfl rfl (fun k => setWork_queue _ k rfl) fun k => ?_
    by_cases hki : k = i
    · subst hki
      exact .inr ⟨hr, by simp⟩
    · exact .inl (by rw [Function.update_of_ne hki])

/-! ## The length of the queues -/

/-- A push is about to be made only to a queue with room. -/
structure Bounded (s : AsyncMgr Req Rsp) : Prop where
  queue : ∀ idx, (s.work idx).queue.length ≤ s.queueMaxSize
  push : ∀ idx j, s.main = .push idx j → (s.work idx).queue.length < s.queueMaxSize
  alive : s.main ≠ .fault ∧ ∀ idx, (s.work idx).run ≠ .fault

theorem mainStep_push (hk : Event.Keeps proccss s (.main : Event Req Db)) (h : s.mainStep = some s') {j : Job Req}
    (hp : s'.main = .push idx j) : (s'.work idx).queue.length < s'.queueMaxSize := by
  unfold mainStep at h
  unfold Event.Keeps at hk
  cases hm : s.main <;> simp only [hm, MainAt.Keeps] at h hk
  case woken i k =>
    obtain ⟨-, h⟩ := Option.ite_none_right_eq_some.mp h
    cases h
    cases hp
    rw [setWork_self]
    exact hk
  case check i k =>
    split at h <;> cases h
    · cases hp
    · rename_i hlt
      cases hp
      exact Nat.lt_of_not_le hlt
  case lock | pickLock =>
    obtain ⟨-, h⟩ := Option.ite_none_right_eq_some.mp h
    cases h
    cases hp
  case idle | asleep | fault => cases h
  all_goals
    cases h
    cases hp

theorem Bounded.mainStep (hb : s.Bounded) (hk : Event.Keeps proccss s (.main : Event Req Db))
    (h : s.mainStep = some s') : s'.Bounded := by
  obtain ⟨hf, he⟩ := mainStep_effect h
  refine ⟨fun i => ?_, fun i j hp => mainStep_push hk h hp, hf.alive, fun i => ?_⟩
  · rw [hf.queueMaxSize]
    cases he with
    | moves _ hq =>
      rw [hq]
      exact hb.queue i
    | pushes k j hm _ hq ho =>
      by_cases hi : i = k
      · rw [hi, hq, List.length_append]
        exact hb.push k j hm
      · rw [ho i hi]
        exact hb.queue i
  · have ha := hb.alive.2 i
    rwa [RunAt.woken_congr (· ≠ .fault) (by simp) (hf.run i)]

theorem Bounded.runStep (hb : s.Bounded) (hk : Event.Keeps proccss s (.run idx db))
    (h : s.runStep proccss idx db = some s') : s'.Bounded := by
  have hf := runStep_frame h
  obtain ⟨-, hq, hr⟩ := runStep_effect hk h
  have hlen : ∀ i, (s'.work i).queue.length ≤ (s.work i).queue.length := by
    intro i
    by_cases hi : i = idx
    · exact hi ▸ hq.length_le
    · rw [hf.work i hi]
  refine ⟨fun i => ?_, fun i j hp => ?_, ?_, fun i => ?_⟩
  · rw [hf.queueMaxSize]
    exact (hlen i).trans (hb.queue i)
  · rw [hf.queueMaxSize]
    refine (hlen i).trans_lt (hb.push i j ?_)
    rwa [hf.congr (· = .push i j) fun _ => by simp] at hp
  · rw [hf.congr (· ≠ .fault) fun _ => by simp]
    exact hb.alive.1
  · by_cases hi : i = idx
    · exact hi ▸ hr
    · rw [hf.work i hi]
      exact hb.alive.2 i

theorem Bounded.step (hb : s.Bounded) {e : Event Req Db} (hk : e.Keeps proccss s)
    (h : Async.step proccss s e = some s') : s'.Bounded := by
  cases e <;> simp only [Async.step] at h
  case addRequest o r =>
    split at h <;> cases h
    rcases addRequest_cases hk with he | ⟨-, he⟩ <;> rw [he]
    · exact hb
    · exact ⟨hb.queue, by simp, by simp, hb.alive.2⟩
  case pick =>
    split at h <;> cases h
    exact ⟨hb.queue, by simp, by simp, hb.alive.2⟩
  case main => exact hb.mainStep hk h
  case run i db =>
    obtain ⟨-, h⟩ := Option.ite_none_right_eq_some.mp h
    exact hb.runStep hk h
  case wakeMain =>
    split at h <;> cases h
    exact ⟨hb.queue, by simp, by simp, hb.alive.2⟩
  case wakeRun i =>
    split at h <;> cases h
    rename_i hr
    have hq : ∀ k, ((s.setWork i { s.work i with run := .woken }).work k).queue = (s.work k).queue :=
      fun k => setWork_queue _ k rfl
    refine ⟨fun k => hq k ▸ hb.queue k, fun k j hp => hq k ▸ hb.push k j hp, hb.alive.1, fun k => ?_⟩
    by_cases hki : k = i
    · subst hki
      simp
    · rw [setWork_of_ne hki]
      exact hb.alive.2 k

end AsyncMgr

/-! ## Who holds the locks, and who is asleep -/

def MainAt.Holds (idx : Nat) : MainAt Req Rsp → Prop
  | .check i _ | .push i _ | .unlock i _ => i = idx
  | _ => False

def MainAt.Signals (idx : Nat) : MainAt Req Rsp → Prop
  | .unlock i _ | .notify i _ => i = idx
  | _ => False

def MainAt.HoldsRsp : MainAt Req Rsp → Prop
  | .pickPop | .pickUnlock _ => True
  | _ => False

def RunAt.Holds : RunAt Req Rsp → Prop
  | .check | .pop | .unlock _ => True
  | _ => False

def RunAt.HoldsRsp : RunAt Req Rsp → Prop
  | .rspPush _ | .rspUnlock => True
  | _ => False

/-- The main thread is in AddRequest, at worker `idx`. -/
def MainAt.At (idx : Nat) : MainAt Req Rsp → Prop
  | .lock i _ | .check i _ | .asleep i _ | .woken i _ | .push i _ | .unlock i _ | .notify i _ => i = idx
  | _ => False

theorem MainAt.At.elsewhere {m : MainAt Req Rsp} {idx i : Nat} (h : m.At idx) (hi : i ≠ idx) :
    ¬ m.Holds i ∧ ¬ m.Signals i := by
  cases m <;> cases h <;> exact ⟨by simp [Holds, hi.symm], by simp [Signals, hi.symm]⟩

theorem MainAt.At.not_holdsRsp {m : MainAt Req Rsp} {idx : Nat} (h : m.At idx) : ¬ m.HoldsRsp := by
  cases m <;> cases h <;> exact id

structure Work.Locked (w : Work Req Rsp) (m : MainAt Req Rsp) (idx : Nat) : Prop where
  mutex : ∀ t, w.mutex = some t → t = .main ∧ m.Holds idx ∨ t = .worker idx ∧ w.run.Holds
  awake : w.run = .asleep → w.queue = [] ∨ m.Signals idx

theorem Work.Locked.elsewhere {w : Work Req Rsp} {m m' : MainAt Req Rsp} {idx : Nat} (h : w.Locked m idx)
    (hh : ¬ m.Holds idx) (hs : ¬ m.Signals idx) : w.Locked m' idx :=
  ⟨fun t ht => .inr ((h.mutex t ht).resolve_left fun hm => hh hm.2), fun hr => .inl ((h.awake hr).resolve_right hs)⟩

namespace AsyncMgr

variable {s s' : AsyncMgr Req Rsp} {proccss : Db → Req → Option Rsp} {idx : Nat} {db : Db}

structure Locked (s : AsyncMgr Req Rsp) : Prop where
  work : ∀ idx, (s.work idx).Locked s.main idx
  rspMutex : ∀ t, s.mutex = some t →
    t = .main ∧ s.main.HoldsRsp ∨ ∃ idx, idx < s.workCnt ∧ t = .worker idx ∧ (s.work idx).run.HoldsRsp

theorem Locked.setWork (hl : s.Locked) {w : Work Req Rsp} (hwork : s'.work = (s.setWork idx w).work)
    (hmutex : s'.mutex = s.mutex) (hcnt : s'.workCnt = s.workCnt) (hw : w.Locked s'.main idx)
    (hm : s.main.At idx) (hr : (s.work idx).run.HoldsRsp → w.run.HoldsRsp) : s'.Locked := by
  refine ⟨fun i => ?_, fun t ht => .inr ?_⟩
  · rw [hwork]
    by_cases hi : i = idx
    · subst hi
      simpa using hw
    · rw [setWork_of_ne hi]
      exact (hl.work i).elsewhere (hm.elsewhere hi).1 (hm.elsewhere hi).2
  · rw [hmutex] at ht
    obtain ⟨i, hi, hti, hri⟩ := (hl.rspMutex t ht).resolve_left fun h => hm.not_holdsRsp h.2
    refine ⟨i, hcnt ▸ hi, hti, ?_⟩
    rw [hwork]
    by_cases hii : i = idx
    · subst hii
      simpa using hr hri
    · rwa [setWork_of_ne hii]

theorem Locked.mainStep (hl : s.Locked) (h : s.mainStep = some s') : s'.Locked := by
  have hw := hl.work
  have hr := hl.rspMutex
  have hset := fun i => @Locked.setWork _ _ s s' i hl
  unfold AsyncMgr.mainStep at h
  cases hm : s.main <;> simp only [hm] at h hw hr hset
  case idle | asleep | fault => cases h
  case lock i j | woken i j =>
    obtain ⟨-, h⟩ := Option.ite_none_right_eq_some.mp h
    cases h
    refine hset i rfl rfl rfl ⟨?_, fun ha => .inl (((hw i).awake ha).resolve_right id)⟩ rfl id
    rintro t ⟨⟩
    exact .inl ⟨rfl, rfl⟩
  case check i j =>
    split at h
    · cases h
      exact hset i rfl rfl rfl ⟨by simp, fun ha => .inl (((hw i).awake ha).resolve_right id)⟩ rfl id
    · cases h
      exact ⟨fun k => ⟨(hw k).mutex, (hw k).awake⟩, hr⟩
  case push i j =>
    cases h
    exact hset i rfl rfl rfl ⟨(hw i).mutex, fun _ => .inr rfl⟩ rfl id
  case unlock i j =>
    cases h
    exact hset i rfl rfl rfl ⟨by simp, fun _ => .inr rfl⟩ rfl id
  case notify i j =>
    cases h
    have hs := (s.work i).run.signalled_eq
    have hrsp := RunAt.woken_congr RunAt.HoldsRsp rfl hs
    refine hset i rfl rfl rfl ⟨fun t ht => ?_, fun ha => ?_⟩ rfl fun h => hrsp ▸ h
    · have hold := ((hw i).mutex t ht).resolve_left And.right
      exact .inr ⟨hold.1, RunAt.woken_congr RunAt.Holds rfl hs ▸ hold.2⟩
    · -- the worker has been woken
      cases hrun : (s.work i).run <;> simp [hrun, RunAt.signalled] at ha
  case pickLock =>
    obtain ⟨-, h⟩ := Option.ite_none_right_eq_some.mp h
    cases h
    refine ⟨fun i => (hw i).elsewhere id id, ?_⟩
    rintro t ⟨⟩
    exact .inl ⟨rfl, trivial⟩
  case pickPop =>
    cases h
    exact ⟨fun i => (hw i).elsewhere id id, hr⟩
  case pickUnlock =>
    cases h
    exact ⟨fun i => (hw i).elsewhere id id, by simp⟩

/-- The response queue's lock before and after a step of the worker `idx`: it is taken, set free, or left alone. -/
def RspLock (s s' : AsyncMgr Req Rsp) (idx : Nat) : Prop :=
  (s'.mutex = some (.worker idx) ∧ (s'.work idx).run.HoldsRsp) ∨ s'.mutex = none ∨
    s'.mutex = s.mutex ∧ ((s.work idx).run.HoldsRsp → (s'.work idx).run.HoldsRsp)

theorem Locked.ofWorker (hl : s.Locked) (hf : RunFrame s s' idx) (hi : idx < s.workCnt)
    (hw : (s'.work idx).Locked s.main idx) (hr : RspLock s s' idx) : s'.Locked := by
  have hwork : ∀ i, (s'.work i).Locked s.main i := by
    intro i
    by_cases hii : i = idx
    · exact hii ▸ hw
    · exact hf.work i hii ▸ hl.work i
  refine ⟨fun i => ⟨fun t ht => ?_, fun ha => ?_⟩, fun t ht => ?_⟩
  · rw [hf.congr (MainAt.Holds i) fun _ => rfl]
    exact (hwork i).mutex t ht
  · rw [hf.congr (MainAt.Signals i) fun _ => rfl]
    exact (hwork i).awake ha
  · rw [hf.congr MainAt.HoldsRsp fun _ => rfl, hf.workCnt]
    rcases hr with ⟨hr, hr'⟩ | hr | ⟨hr, hr'⟩ <;> rw [hr] at ht
    · cases ht
      exact .inr ⟨idx, hi, rfl, hr'⟩
    · cases ht
    · refine (hl.rspMutex t ht).imp_right fun h => ?_
      obtain ⟨k, hk, htk, hkr⟩ := h
      refine ⟨k, hk, htk, ?_⟩
      by_cases hki : k = idx
      · exact hki ▸ hr' (hki ▸ hkr)
      · exact (hf.work k hki).symm ▸ hkr

theorem Locked.runStep (hl : s.Locked) (hi : idx < s.workCnt) (h : s.runStep proccss idx db = some s') : s'.Locked := by
  have hw := hl.work idx
  suffices hw' : (s'.work idx).Locked s.main idx ∧ RspLock s s' idx from
    hl.ofWorker (runStep_frame h) hi hw'.1 hw'.2
  unfold RspLock
  have hmain : ∀ t, (s.work idx).mutex = some t → ¬ (s.work idx).run.Holds → t = .main ∧ s.main.Holds idx :=
    fun t ht hn => (hw.mutex t ht).resolve_right fun h => hn h.2
  unfold AsyncMgr.runStep at h
  cases hr : (s.work idx).run <;> simp only [hr] at h hmain
  case asleep | fault => cases h
  case lock | woken =>
    obtain ⟨-, h⟩ := Option.ite_none_right_eq_some.mp h
    cases h
    rw [setWork_self]
    refine ⟨⟨?_, by simp⟩, .inr (.inr ⟨rfl, False.elim⟩)⟩
    rintro t ⟨⟩
    exact .inr ⟨rfl, trivial⟩
  case check =>
    split at h <;> cases h <;> rw [setWork_self]
    · rename_i hq
      exact ⟨⟨by simp, fun _ => .inl hq⟩, .inr (.inr ⟨rfl, False.elim⟩)⟩
    · exact ⟨⟨fun t ht => (hw.mutex t ht).imp_right fun h => ⟨h.1, trivial⟩, by simp⟩, .inr (.inr ⟨rfl, False.elim⟩)⟩
  case pop =>
    cases h
    rw [setWork_self]
    exact ⟨⟨fun t ht => (hw.mutex t ht).imp_right fun h => ⟨h.1, trivial⟩, by simp⟩, .inr (.inr ⟨rfl, False.elim⟩)⟩
  case unlock req =>
    cases h
    rw [setWork_self]
    exact ⟨⟨by simp, by simp⟩, .inr (.inr ⟨rfl, False.elim⟩)⟩
  case notify req =>
    cases h
    simp only [AsyncMgr.setWork, Function.update_self]
    exact ⟨⟨fun t ht => .inl (hmain t ht id), by cases req <;> simp⟩, .inr (.inr ⟨trivial, False.elim⟩)⟩
  case proccss j =>
    split at h <;> cases h <;> simp only [AsyncMgr.setWork, Function.update_self]
    all_goals exact ⟨⟨fun t ht => .inl (hmain t ht id), by simp⟩, .inr (.inr ⟨trivial, False.elim⟩)⟩
  case rspLock a =>
    obtain ⟨-, h⟩ := Option.ite_none_right_eq_some.mp h
    cases h
    simp only [AsyncMgr.setWork, Function.update_self]
    exact ⟨⟨fun t ht => .inl (hmain t ht id), by simp⟩, .inl ⟨trivial, trivial⟩⟩
  case rspPush a =>
    cases h
    simp only [AsyncMgr.setWork, Function.update_self]
    exact ⟨⟨fun t ht => .inl (hmain t ht id), by simp⟩, .inr (.inr ⟨trivial, fun _ => trivial⟩)⟩
  case rspUnlock =>
    cases h
    simp only [AsyncMgr.setWork, Function.update_self]
    exact ⟨⟨fun t ht => .inl (hmain t ht id), by simp⟩, .inr (.inl trivial)⟩

theorem Locked.step (hl : s.Locked) {e : Event Req Db} (h : Async.step proccss s e = some s') : s'.Locked := by
  cases e <;> simp only [Async.step] at h
  case addRequest o r =>
    split at h <;> cases h
    rename_i hm
    have hw := hl.work
    have hr := hl.rspMutex
    rw [hm] at hw hr
    unfold AsyncMgr.addRequest
    split
    · exact hl
    · dsimp only
      split
      · exact ⟨fun i => (hw i).elsewhere id id, hr⟩
      · exact ⟨fun i => (hw i).elsewhere id id, hr⟩
  case pick =>
    split at h <;> cases h
    rename_i hm
    have hw := hl.work
    have hr := hl.rspMutex
    rw [hm] at hw hr
    exact ⟨fun i => (hw i).elsewhere id id, hr⟩
  case main => exact hl.mainStep h
  case run i db =>
    obtain ⟨hi, h⟩ := Option.ite_none_right_eq_some.mp h
    exact hl.runStep hi h
  case wakeMain =>
    split at h <;> cases h
    rename_i hm
    have hw := hl.work
    have hr := hl.rspMutex
    rw [hm] at hw hr
    exact ⟨fun i => (hw i).elsewhere id id, hr⟩
  case wakeRun i =>
    split at h <;> cases h
    rename_i hrun
    have hi : ∀ k, ((s.setWork i { s.work i with run := .woken }).work k).run = (s.work k).run ∨
        (s.work k).run = .asleep ∧ ((s.setWork i { s.work i with run := .woken }).work k).run = .woken := by
      intro k
      by_cases hki : k = i
      · subst hki
        exact .inr ⟨hrun, by rw [setWork_self]⟩
      · exact .inl (by rw [setWork_of_ne hki])
    refine ⟨fun k => ?_, fun t ht => ?_⟩
    · by_cases hki : k = i
      · subst hki
        rw [setWork_self]
        refine ⟨fun t ht => ((hl.work k).mutex t ht).imp_right fun h => ?_, by simp⟩
        have := h.2
        rw [hrun] at this
        exact this.elim
      · rw [setWork_of_ne hki]
        exact hl.work k
    · refine (hl.rspMutex t ht).imp_right fun h => ?_
      obtain ⟨k, hk, htk, hkr⟩ := h
      refine ⟨k, hk, htk, ?_⟩
      rwa [RunAt.woken_congr RunAt.HoldsRsp rfl (hi k)]

/-! ## Coming to rest -/

theorem mainStep_none (h : s.mainStep = none) : (∀ i, ¬ s.main.Holds i ∧ ¬ s.main.Signals i) ∧ ¬ s.main.HoldsRsp := by
  unfold mainStep at h
  cases hm : s.main <;> simp only [hm] at h
  case check => split at h <;> cases h
  case push | unlock | notify | pickPop | pickUnlock => cases h
  all_goals exact ⟨fun _ => ⟨id, id⟩, id⟩

theorem runStep_none (h : s.runStep proccss idx db = none) : ¬ (s.work idx).run.Holds ∧ ¬ (s.work idx).run.HoldsRsp := by
  unfold runStep at h
  cases hr : (s.work idx).run <;> simp only [hr] at h
  case check => split at h <;> cases h
  case pop | unlock | notify | rspPush | rspUnlock => cases h
  all_goals exact ⟨id, id⟩

/-- Where no thread can go on, every worker sleeps over an empty queue. -/
theorem Locked.rest (hl : s.Locked) (hb : s.Bounded) [Nonempty Db] (hr : s.AtRest proccss) (hi : idx < s.workCnt) :
    (s.work idx).run = .asleep ∧ (s.work idx).queue = [] := by
  obtain ⟨db⟩ := ‹Nonempty Db›
  obtain ⟨hmain, hmainRsp⟩ := mainStep_none (hr .main trivial)
  have hrun : ∀ i, i < s.workCnt → s.runStep proccss i db = none := by
    intro i hi
    have := hr (.run i db) trivial
    rwa [Async.step, if_pos hi] at this
  -- a lock would be held by a thread that can go on
  have hfree : (s.work idx).mutex = none := by
    rw [Option.eq_none_iff_forall_not_mem]
    intro t ht
    rcases (hl.work idx).mutex t ht with h | h
    · exact (hmain idx).1 h.2
    · exact (runStep_none (hrun idx hi)).1 h.2
  have hfreeRsp : s.mutex = none := by
    rw [Option.eq_none_iff_forall_not_mem]
    intro t ht
    rcases hl.rspMutex t ht with h | ⟨k, hk, -, hkr⟩
    · exact hmainRsp h.2
    · exact (runStep_none (hrun k hk)).2 hkr
  have hstep := hrun idx hi
  unfold AsyncMgr.runStep at hstep
  cases hw : (s.work idx).run <;> simp only [hw, hfree, hfreeRsp] at hstep
  case asleep => exact ⟨rfl, ((hl.work idx).awake hw).resolve_right (hmain idx).2⟩
  case fault => exact absurd hw (hb.alive.2 idx)
  case check => split at hstep <;> cases hstep
  case proccss => split at hstep <;> cases hstep
  all_goals cases hstep

end AsyncMgr

/-- A bound on the steps of the main thread until its call returns, and on what it makes a worker do. -/
def MainAt.fuel : MainAt Req Rsp → Nat
  | .lock _ _ => 25
  | .check _ _ => 24
  | .asleep _ _ => 23
  | .woken _ _ => 22
  | .push _ _ => 21
  | .unlock _ _ => 11
  | .notify _ _ => 10
  | .pickLock => 3
  | .pickPop => 2
  | .pickUnlock _ => 1
  | .idle | .fault => 0

/-- A bound on the steps of a worker until it sleeps: nine for each request in its queue. -/
def Work.fuel (w : Work Req Rsp) : Nat :=
  let n := 9 * w.queue.length
  match w.run with
  | .lock => n + 2
  | .check => n + 1
  | .asleep | .fault => n
  | .woken => max 5 n + 1
  | .pop => max 5 n
  | .unlock none | .rspPush _ => n + 4
  | .notify none | .rspUnlock => n + 3
  | .unlock (some _) => n + 8
  | .notify (some _) => n + 7
  | .proccss _ => n + 6
  | .rspLock _ => n + 5

namespace AsyncMgr

variable {s s' : AsyncMgr Req Rsp} {proccss : Db → Req → Option Rsp} {idx : Nat} {db : Db}

def fuel (s : AsyncMgr Req Rsp) : Nat := s.main.fuel + ∑ i ∈ Finset.range s.workCnt, (s.work i).fuel

theorem sum_fuel_le {k : Nat} (n : Nat) (h : (s'.work idx).fuel ≤ (s.work idx).fuel + k)
    (ho : ∀ i, i ≠ idx → s'.work i = s.work i) :
    ∑ i ∈ Finset.range n, (s'.work i).fuel ≤ ∑ i ∈ Finset.range n, (s.work i).fuel + k := by
  calc ∑ i ∈ Finset.range n, (s'.work i).fuel
    _ ≤ ∑ i ∈ Finset.range n, ((s.work i).fuel + if i = idx then k else 0) := by
      refine Finset.sum_le_sum fun i _ => ?_
      by_cases hi : i = idx
      · rw [if_pos hi, hi]
        exact h
      · rw [ho i hi]
        exact Nat.le_add_right _ _
    _ ≤ ∑ i ∈ Finset.range n, (s.work i).fuel + k := by
      rw [Finset.sum_add_distrib, Finset.sum_ite_eq']
      split <;> omega

theorem fuel_mainStep (h : s.mainStep = some s') : s'.fuel < s.fuel := by
  have hcnt := (mainStep_effect h).1.workCnt
  suffices hw : ∃ idx k, (s'.work idx).fuel ≤ (s.work idx).fuel + k ∧ (∀ i, i ≠ idx → s'.work i = s.work i) ∧
      s'.main.fuel + k < s.main.fuel by
    obtain ⟨idx, k, hk, ho, hm⟩ := hw
    have := sum_fuel_le s.workCnt hk ho
    unfold fuel
    rw [hcnt]
    omega
  unfold mainStep at h
  cases hm : s.main <;> simp only [hm] at h
  case idle | asleep | fault => cases h
  case lock i j | woken i j =>
    obtain ⟨-, h⟩ := Option.ite_none_right_eq_some.mp h
    cases h
    exact ⟨i, 0, by simp [setWork, Work.fuel], fun k hk => setWork_of_ne hk _, by simp [MainAt.fuel]⟩
  case check i j =>
    split at h <;> cases h
    · exact ⟨i, 0, by simp [setWork, Work.fuel], fun k hk => setWork_of_ne hk _, by simp [MainAt.fuel]⟩
    · exact ⟨i, 0, le_rfl, fun _ _ => rfl, by simp [MainAt.fuel]⟩
  case push i j =>
    cases h
    refine ⟨i, 9, ?_, fun k hk => setWork_of_ne hk _, by simp [MainAt.fuel]⟩
    simp only [setWork, Function.update_self, Work.fuel, List.length_append, List.length_singleton]
    split <;> omega
  case unlock i j =>
    cases h
    exact ⟨i, 0, by simp [setWork, Work.fuel], fun k hk => setWork_of_ne hk _, by simp [MainAt.fuel]⟩
  case notify i j =>
    cases h
    refine ⟨i, 6, ?_, fun k hk => setWork_of_ne hk _, by simp [MainAt.fuel]⟩
    simp only [setWork, Function.update_self]
    cases hr : (s.work i).run <;> simp only [RunAt.signalled, Work.fuel, hr] <;> omega
  case pickLock =>
    obtain ⟨-, h⟩ := Option.ite_none_right_eq_some.mp h
    cases h
    exact ⟨0, 0, le_rfl, fun _ _ => rfl, by simp [MainAt.fuel]⟩
  case pickPop | pickUnlock =>
    cases h
    exact ⟨0, 0, le_rfl, fun _ _ => rfl, by simp [MainAt.fuel]⟩

theorem fuel_runStep (hi : idx < s.workCnt) (h : s.runStep proccss idx db = some s') : s'.fuel < s.fuel := by
  have hf := runStep_frame h
  have hm : s'.main.fuel ≤ s.main.fuel := by
    rcases hf.main with hm | ⟨j, hm, hm'⟩
    · rw [hm]
    · rw [hm, hm']
      simp [MainAt.fuel]
  suffices hw : (s'.work idx).fuel < (s.work idx).fuel by
    unfold fuel
    rw [hf.workCnt]
    refine Nat.add_lt_add_of_le_of_lt hm (Finset.sum_lt_sum (fun i _ => ?_) ⟨idx, Finset.mem_range.mpr hi, hw⟩)
    by_cases hi : i = idx
    · exact hi ▸ hw.le
    · rw [hf.work i hi]
  unfold runStep at h
  cases hr : (s.work idx).run <;> simp only [hr] at h
  case asleep | fault => cases h
  case lock | woken | rspLock =>
    obtain ⟨-, h⟩ := Option.ite_none_right_eq_some.mp h
    cases h
    simp [setWork, Work.fuel, hr]
  case check =>
    split at h <;> cases h <;> rename_i hq
    · simp [setWork, Work.fuel, hr, hq]
    · have := List.length_pos_iff.mpr hq
      simp only [setWork, Work.fuel, hr, Function.update_self]
      omega
  case pop =>
    cases h
    cases hq : (s.work idx).queue <;> simp [setWork, Work.fuel, hr, hq]
    omega
  case unlock req | notify req =>
    cases h
    cases req <;> simp [setWork, Work.fuel, hr]
  case proccss => split at h <;> cases h <;> simp [setWork, Work.fuel, hr]
  all_goals
    cases h
    simp [setWork, Work.fuel, hr]

/-! ## Runs -/

structure Sound (proccss : Db → Req → Option Rsp) (s : AsyncMgr Req Rsp) : Prop where
  accounts : Accounts proccss s
  bounded : s.Bounded
  locked : s.Locked

theorem sound_init (workCnt queueMaxSize : Nat) : Sound proccss (init Req Rsp workCnt queueMaxSize) := by
  refine ⟨⟨trivial, rfl, fun _ => rfl, fun _ => rfl, fun _ => rfl, rfl, by simp [init]⟩, ?_, ?_⟩
  · exact ⟨by simp [init], by simp [init], by simp [init], by simp [init]⟩
  · exact ⟨fun _ => ⟨by simp [init], by simp [init]⟩, by simp [init]⟩

theorem sound_run {workCnt queueMaxSize : Nat} {t : List (Event Req Db)}
    (h : Run (fun s e s' => step proccss s e = some s') (fun _ s e => e.Keeps proccss s)
      (init Req Rsp workCnt queueMaxSize) t s) : Sound proccss s := by
  refine h.invariant (fun _ => Sound proccss) (sound_init ..) fun _ _ _ _ _ hs hk hst => ?_
  exact ⟨hs.accounts.step hk hst, hs.bounded.step hk hst, hs.locked.step hst⟩

theorem map_byWorker (n idx : Nat) (l : List (Answer Req Rsp)) :
    (byWorker n idx l).map Answer.job = forWorker n idx (l.map Answer.job) := by
  rw [byWorker, forWorker, List.filter_map]
  rfl

theorem filter_forWorker (n o : Nat) (l : List (Job Req)) :
    (forWorker n (o % n) l).filter (fun j => j.orderid = o) = l.filter fun j => j.orderid = o := by
  rw [forWorker, List.filter_filter]
  refine List.filter_congr fun j _ => ?_
  by_cases h : j.orderid = o <;> simp [h]

theorem Accounts.executed (ha : Accounts proccss s) (idx : Nat) :
    forWorker s.workCnt idx (s.executed.map Answer.job) <+: forWorker s.workCnt idx s.submitted := by
  have hr : (s.work idx).run.result.map Answer.job <+: (s.work idx).run.hand := by
    cases (s.work idx).run <;> simp [RunAt.result, RunAt.hand]
  obtain ⟨l, hl⟩ := hr
  rw [← map_byWorker, ha.results, ← ha.requests, List.map_append, ← hl]
  exact ⟨l ++ (s.work idx).queue, by simp only [List.append_assoc]⟩

theorem Accounts.answered (ha : Accounts proccss s) (idx : Nat) :
    forWorker s.workCnt idx (s.answered.map Answer.job) <+: forWorker s.workCnt idx s.submitted := by
  rw [← map_byWorker, ← ha.requests]
  exact List.prefix_append _ _

theorem Accounts.distinct (ha : Accounts proccss s) : (s.submitted.map Job.no).Nodup := by
  have hs : s.main.pushed.Sublist s.main.inCall := by
    cases s.main <;> simp [MainAt.pushed, MainAt.inCall]
  have ht : (s.taken.map Job.no).Nodup := ha.numbers ▸ List.nodup_range
  exact ht.sublist (((List.Sublist.refl _).append hs).map _)

theorem Accounts.once (ha : Accounts proccss s) : (s.answered.map fun a => a.job.no).Nodup := by
  classical
  have hsub : (s.answered.map Answer.job).Subperm s.submitted := by
    rw [List.subperm_ext_iff]
    intro j _
    have hle := (ha.answered (j.orderid % s.workCnt)).sublist.count_le j
    rwa [forWorker, forWorker, List.count_filter (by simp), List.count_filter (by simp)] at hle
  obtain ⟨l, hp, hl⟩ := hsub
  have hno := (hp.map Job.no).nodup_iff.mp (ha.distinct.sublist (hl.map _))
  rwa [List.map_map] at hno

theorem Sound.served [Nonempty Db] (hs : Sound proccss s) : Served proccss s := by
  have ha := hs.accounts
  have horder : ∀ {l : List (Answer Req Rsp)}, (∀ idx, forWorker s.workCnt idx (l.map Answer.job) <+:
      forWorker s.workCnt idx s.submitted) → ∀ o, ((l.filter fun a => a.job.orderid = o).map Answer.job) <+:
      s.submitted.filter fun j => j.orderid = o := by
    intro l hl o
    have h := (hl (o % s.workCnt)).filter fun j => j.orderid = o
    rw [filter_forWorker, filter_forWorker, List.filter_map] at h
    exact h
  refine ⟨hs.bounded.alive, hs.bounded.queue, horder ha.executed, horder ha.answered, fun a hm => ?_, ha.distinct, ha.once,
    ha.responses, ⟨s.fuel, fun t s' hr => ?_⟩, fun hrest j hj => ?_⟩
  · have hb : a ∈ byWorker s.workCnt (a.job.orderid % s.workCnt) s.executed := by
      rw [ha.results]
      exact List.mem_append_left _ (List.mem_filter.mpr ⟨hm, by simp⟩)
    exact ha.right a (List.mem_filter.mp hb).1
  · have h := hr.length_le AsyncMgr.fuel fun _ s e s' he hst => ?_
    · omega
    · cases e with
      | main => exact fuel_mainStep hst
      | run i db =>
        obtain ⟨hi, hst⟩ := Option.ite_none_right_eq_some.mp hst
        exact fuel_runStep hi hst
      | _ => cases he
  · have hcnt : 0 < s.workCnt := by
      refine Nat.pos_of_ne_zero fun h0 => ?_
      have hn := ha.numbers
      rw [ha.workers h0, List.range_zero, List.map_eq_nil_iff, taken, List.append_eq_nil_iff] at hn
      rw [hn.1] at hj
      cases hj
    obtain ⟨hw, hq⟩ := hs.locked.rest hs.bounded hrest (Nat.mod_lt j.orderid hcnt)
    have hm : j ∈ forWorker s.workCnt (j.orderid % s.workCnt) s.submitted :=
      List.mem_filter.mpr ⟨List.mem_append_left _ hj, by simp⟩
    rw [← ha.requests, hw, hq, show (RunAt.asleep : RunAt Req Rsp).hand = [] from rfl, List.append_nil,
      List.append_nil] at hm
    exact List.map_subset _ (List.filter_subset_self _) hm

end AsyncMgr

instance : Nonempty MysqlPool := ⟨⟨fun _ _ _ _ _ => none, ""⟩⟩

instance {Reply : Type} : Nonempty (RedisPool Reply) := ⟨fun _ _ _ _ _ _ => .error (0, "")⟩

/-- Both managers serve their callers in every run in which AddRequest goes on from its wait only when there is room. -/
theorem requests_served {workCnt queueMaxSize : Nat} {Reply : Type} :
    (∀ t s, Run (fun s e s' => mysqlStep s e = some s') (fun _ s e => e.Keeps mysqlProccss s)
      (init MysqlReq MysqlRsp workCnt queueMaxSize) t s → Served mysqlProccss s) ∧
    ∀ t s, Run (fun s e s' => redisStep s e = some s') (fun _ s e => e.Keeps redisProccss s)
      (init RedisReq (RedisRsp Reply) workCnt queueMaxSize) t s → Served redisProccss s :=
  ⟨fun _ _ h => (AsyncMgr.sound_run h).served, fun _ _ h => (AsyncMgr.sound_run h).served⟩

instance (s : AsyncMgr Req Rsp) (m : MainAt Req Rsp) : Decidable (m.Keeps s) := by
  cases m <;> first | exact instDecidableTrue | exact Nat.decLt _ _

instance (proccss : Db → Req → Option Rsp) (db : Db) (r : RunAt Req Rsp) : Decidable (r.Keeps proccss db) := by
  cases r <;> first | exact instDecidableTrue | exact instDecidableEqBool _ _

instance (proccss : Db → Req → Option Rsp) (s : AsyncMgr Req Rsp) : ∀ e, Decidable (Event.Keeps proccss s e)
  | .addRequest _ _ => Nat.decLt _ _
  | .main => inferInstanceAs (Decidable (s.main.Keeps s))
  | .run idx db => inferInstanceAs (Decidable ((s.work idx).run.Keeps proccss db))
  | .pick | .wakeMain | .wakeRun _ => instDecidableTrue

/-- The second request waits until the worker has taken the first and signalled. -/
def twoRequests (req req' : Req) (db : Db) : List (Event Req Db) :=
  .addRequest 7 req :: List.replicate 5 .main ++ .addRequest 7 req' :: List.replicate 2 .main ++
  List.replicate 5 (.run 1 db) ++ List.replicate 4 .main ++ List.replicate 4 (.run 1 db) ++ .pick :: List.replicate 3 .main ++
  List.replicate 9 (.run 1 db) ++ .pick :: List.replicate 3 .main

theorem requests_served_two :
    (∃ s, s.picked.map (fun a => (a.rsp.transId, a.rsp.codeWhat)) = [(3, "illegal url"), (4, "illegal url")] ∧
      Served mysqlProccss s) ∧
      ∃ s : AsyncMgr RedisReq (RedisRsp Unit), s.picked.map (fun a => a.rsp.transId) = [3, 4] ∧ Served redisProccss s := by
  let mreq : MysqlReq := { type := .E_QUERY, transId := 3, url := "", sql := "SELECT 1" }
  let mt := twoRequests mreq { mreq with transId := 4 } (⟨fun _ _ _ _ _ => none, ""⟩ : MysqlPool)
  let rreq : RedisReq := { transId := 3, url := "", cmd := ["GET", "a"] }
  let rt := twoRequests rreq { rreq with transId := 4 } ((fun _ _ _ _ _ _ => .error (0, "")) : RedisPool Unit)
  obtain ⟨hm, hr⟩ := @requests_served 2 1 Unit
  refine ⟨⟨(replay (fun s e => if e.Keeps mysqlProccss s then mysqlStep s e else none) (init _ _ 2 1) mt).get
    (by decide +kernel), by decide +kernel, hm mt _ (Run.of_replay_meets (Option.some_get _).symm)⟩, ?_⟩
  exact ⟨(replay (fun s e => if e.Keeps redisProccss s then redisStep s e else none) (init _ _ 2 1) rt).get
    (by decide +kernel), by decide +kernel, hr rt _ (Run.of_replay_meets (Option.some_get _).symm)⟩

/-- The worker has taken the first request and not signalled yet; the second fills the queue, the third waits and is
woken by the signal for the first. -/
def lateSignal (req : Req) (db : Db) : List (Event Req Db) :=
  .addRequest 0 req :: List.replicate 5 .main ++ List.replicate 4 (.run 0 db) ++
  .addRequest 0 req :: List.replicate 5 .main ++
  .addRequest 0 req :: List.replicate 2 .main ++ .run 0 db :: List.replicate 2 .main

theorem late_signal_overfills : ∃ t s, Run (fun s e s' => mysqlStep s e = some s') (fun _ _ _ => True)
    (init MysqlReq MysqlRsp 1 1) t s ∧ (s.work 0).queue.length = 2 ∧ ¬ Served mysqlProccss s := by
  let req : MysqlReq := { type := .E_QUERY, transId := 3, url := "", sql := "SELECT 1" }
  let t := lateSignal req (⟨fun _ _ _ _ _ => none, ""⟩ : MysqlPool)
  let s := (replay mysqlStep (init _ _ 1 1) t).get (by decide)
  have hlen : (s.work 0).queue.length = 2 := by decide
  refine ⟨t, s, Run.of_replay (Option.some_get _).symm, hlen, fun h => ?_⟩
  have hmax : s.queueMaxSize = 1 := by decide
  have := h.bounded 0
  omega

end GlobalServer.Async
