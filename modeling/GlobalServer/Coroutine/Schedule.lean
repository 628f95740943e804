import Mathlib.Data.List.Nodup
import Mathlib.Logic.Function.Basic

/-!
# Coroutines and their tasks

`Coroutine` and `CoroutineTask` of one thread. A coroutine runs one task
after another: when a task ends its wrapper is parked in `gfreecovec`, or the
coroutine ends when there are enough wrappers. What a task will do when it
runs on is a `κ`, and `yield` stores it.

Seen from outside only `curco` and `task` matter: a schedule that is in order
starts, resumes, parks and ends tasks and mixes no two of them up.
-/

namespace GlobalServer

inductive CoStatus where
  | ready
  | running
  | suspend
  | dead
  deriving DecidableEq

/-- `_coroutine_` with the `task` of the wrapper it runs on. -/
structure Co (κ : Type) where
  status : CoStatus
  task : Option κ

/-- `_schedule_`, and the wrappers of `CoroutineTask` by the ids of their coroutines, the last one first. -/
structure Schedule (κ : Type) where
  cap : Nat
  nco : Nat
  co : Nat → Option (Co κ)
  curco : Option Nat
  freeid : List Nat
  freecovec : List Nat
  alltaskwrapperset : List Nat

def mainCoroutineId : Nat := 0

def defaultCoroutine : Nat := 1024

def maxReserveCoroutine : Nat := 20

namespace Schedule

variable {κ : Type}

def init : Schedule κ :=
  { cap := 0, nco := 0, co := fun _ => none, curco := none, freeid := [], freecovec := [], alltaskwrapperset := [] }

def curid (s : Schedule κ) : Nat := s.curco.getD mainCoroutineId

def setCo (s : Schedule κ) (id : Nat) (c : Co κ) : Schedule κ :=
  { s with co := Function.update s.co id (some c) }

def allocSchedule (s : Schedule κ) : Schedule κ :=
  if s.cap = 0 then { s with cap := defaultCoroutine }
  else if s.nco < s.cap then s
  else { s with cap := s.cap * 2 }

def create (s : Schedule κ) (c : Co κ) : Schedule κ × Nat :=
  match s.freeid with
  | id :: freeid => ({ s with freeid := freeid }.setCo id c, id)
  | [] =>
    let s := if s.nco = s.cap then s.allocSchedule else s
    ({ s with nco := s.nco + 1 }.setCo (s.nco + 1) c, s.nco + 1)

def getCoTaskWrapper (s : Schedule κ) : Schedule κ × Nat :=
  match s.freecovec with
  | id :: freecovec => ({ s with freecovec := freecovec }, id)
  | [] =>
    let r := s.create ⟨.ready, none⟩
    ({ r.1 with alltaskwrapperset := r.2 :: r.1.alltaskwrapperset }, r.2)

def checkResume (s : Schedule κ) (id : Nat) : Bool :=
  s.curco.isNone && decide (mainCoroutineId < id) && decide (id ≤ s.cap)

/-- `Coroutine::resume`, up to where the coroutine runs. -/
def resume (s : Schedule κ) (id : Nat) : Schedule κ :=
  if s.checkResume id then
    match s.co id with
    | none => s
    | some c => match c.status with
      | .suspend => { s.setCo id { c with status := .running } with curco := some id }
      | .ready => { s.setCo id { c with status := .running } with curco := some id }
      | _ => s
  else s

/-- The coroutine's function returns: it is dead, and `resume` frees it. -/
def exit (s : Schedule κ) (id : Nat) : Schedule κ :=
  { s with
    co := Function.update s.co id none
    curco := none
    freeid := id :: s.freeid
    alltaskwrapperset := s.alltaskwrapperset.erase id }

/-- The turn of `_co_task_func_` after a `resume`: a wrapper without a task ends its coroutine. -/
def taskFunc (s : Schedule κ) : Schedule κ :=
  match s.curco with
  | none => s
  | some id => match s.co id with
    | some ⟨_, none⟩ => s.exit id
    | _ => s

/-- `CoroutineTask::doTask` of a function that stands at `k`. -/
def doTask (s : Schedule κ) (k : κ) : Schedule κ :=
  if s.curid = mainCoroutineId then
    let r := s.getCoTaskWrapper
    let c := match r.1.co r.2 with
      | some c => { c with task := some k }
      | none => ⟨.ready, some k⟩
    (r.1.setCo r.2 c).resume r.2
  else s

def resumeTask (s : Schedule κ) (id : Nat) : Schedule κ :=
  if s.curid = mainCoroutineId then (s.resume id).taskFunc else s

/-- The running task goes on to `k`. -/
def goto (s : Schedule κ) (k : κ) : Schedule κ :=
  match s.curco with
  | none => s
  | some id => s.setCo id ⟨.running, some k⟩

/-- `Coroutine::yield` of a task that will go on at `k`. -/
def yield (s : Schedule κ) (k : κ) : Schedule κ :=
  match s.curco with
  | none => s
  | some id => { s.setCo id ⟨.suspend, some k⟩ with curco := none }

/-- `_co_task_func_` once the task's function has returned. -/
def taskEnd (s : Schedule κ) : Schedule κ :=
  match s.curco with
  | none => s
  | some id =>
    if maxReserveCoroutine ≤ s.alltaskwrapperset.length then s.exit id
    else { s.setCo id ⟨.suspend, none⟩ with curco := none, freecovec := id :: s.freecovec }

/-! ## A schedule in order -/

/-- The task on a coroutine. -/
def task (s : Schedule κ) (id : Nat) : Option κ := (s.co id).bind Co.task

/-- The wrappers are parked exactly when they have no task, and ids are used once. -/
structure Ok (s : Schedule κ) : Prop where
  cap : s.nco ≤ s.cap
  range : ∀ id c, s.co id = some c → 0 < id ∧ id ≤ s.nco
  freeid : s.freeid.Nodup
  free : ∀ id ∈ s.freeid, 0 < id ∧ id ≤ s.nco ∧ s.co id = none
  parked : s.freecovec.Nodup
  park : ∀ id ∈ s.freecovec, s.co id = some ⟨.suspend, none⟩
  current : ∀ id, s.curco = some id → ∃ k, s.co id = some ⟨.running, some k⟩
  waiting : ∀ id c, s.co id = some c → s.curco ≠ some id → c.status = .suspend ∧ (c.task = none → id ∈ s.freecovec)

theorem ok_init : Ok (init : Schedule κ) where
  cap := Nat.le_refl _
  range := by simp [init]
  freeid := List.nodup_nil
  free := by simp [init]
  parked := List.nodup_nil
  park := by simp [init]
  current := by simp [init]
  waiting := by simp [init]

@[simp] theorem task_init (id : Nat) : (init : Schedule κ).task id = none := rfl

variable {s : Schedule κ}

theorem task_setCo (id : Nat) (c : Co κ) : (s.setCo id c).task = Function.update s.task id c.task := by
  funext i
  by_cases hi : i = id
  · subst hi; simp [task, setCo]
  · simp [task, setCo, hi]

theorem Ok.task_pos (h : Ok s) {id : Nat} {k : κ} (hk : s.task id = some k) : 0 < id := by
  obtain ⟨c, hc, -⟩ := Option.bind_eq_some_iff.mp hk
  exact (h.range id c hc).1

theorem Ok.curid_eq (h : Ok s) : s.curid = mainCoroutineId ↔ s.curco = none := by
  unfold curid
  cases hc : s.curco with
  | none => simp
  | some id =>
    obtain ⟨k, hk⟩ := h.current id hc
    have := (h.range id _ hk).1
    simp [mainCoroutineId]; exact Nat.ne_of_gt this

theorem resume_of_co {id : Nat} {c : Co κ} (hn : s.curco = none) (hid : 0 < id) (hle : id ≤ s.cap)
    (hc : s.co id = some c) (hst : c.status = .suspend ∨ c.status = .ready) :
    s.resume id = { s.setCo id { c with status := .running } with curco := some id } := by
  have hr : s.checkResume id = true := by simp [checkResume, hn, mainCoroutineId, hid, hle]
  unfold resume
  rw [if_pos hr, hc]
  rcases hst with hst | hst <;> simp [hst]

theorem resume_setCo {id : Nat} {c : Co κ} (hn : s.curco = none) (hid : 0 < id) (hle : id ≤ s.cap)
    (hst : c.status = .suspend ∨ c.status = .ready) :
    (s.setCo id c).resume id = { s.setCo id { c with status := .running } with curco := some id } := by
  rw [resume_of_co (s := s.setCo id c) hn hid hle (Function.update_self ..) hst]
  simp [setCo]

/-- A schedule in order with one coroutine replaced. No other coroutine may be the running one. -/
theorem Ok.replace (h : Ok s) {s' : Schedule κ} (id : Nat) {c : Option (Co κ)}
    (hco : s'.co = Function.update s.co id c)
    (hcap : s'.nco ≤ s'.cap) (hnco : s.nco ≤ s'.nco) (hid : 0 < id) (hle : id ≤ s'.nco)
    (hfree : s'.freeid.Nodup) (hf : ∀ i ∈ s'.freeid, i = id ∧ c = none ∨ i ≠ id ∧ i ∈ s.freeid)
    (hparked : s'.freecovec.Nodup)
    (hp : ∀ i, i ∈ s'.freecovec ↔ i = id ∧ c = some ⟨.suspend, none⟩ ∨ i ≠ id ∧ i ∈ s.freecovec)
    (hold : ∀ i, s.curco = some i → i = id)
    (hcur : ∀ i, s'.curco = some i → i = id ∧ ∃ k, c = some ⟨.running, some k⟩)
    (hw : s'.curco = none → c = none ∨ ∃ t, c = some ⟨.suspend, t⟩) : Ok s' where
  cap := hcap
  range i x hi := by
    rw [hco] at hi
    by_cases he : i = id
    · subst he; exact ⟨hid, hle⟩
    · rw [Function.update_of_ne he] at hi
      exact ⟨(h.range i x hi).1, Nat.le_trans (h.range i x hi).2 hnco⟩
  freeid := hfree
  free i hi := by
    rw [hco]
    rcases hf i hi with ⟨rfl, rfl⟩ | ⟨hne, hi⟩
    · exact ⟨hid, hle, by simp⟩
    · obtain ⟨h1, h2, h3⟩ := h.free i hi
      exact ⟨h1, Nat.le_trans h2 hnco, by simp [hne, h3]⟩
  parked := hparked
  park i hi := by
    rw [hco]
    rcases (hp i).mp hi with ⟨rfl, rfl⟩ | ⟨hne, hi⟩
    · simp
    · simp [hne, h.park i hi]
  current i hi := by
    obtain ⟨rfl, k, rfl⟩ := hcur i hi
    exact ⟨k, by simp [hco]⟩
  waiting i x hi hn := by
    rw [hco] at hi
    by_cases he : i = id
    · subst he
      have hx : c = some x := by simpa using hi
      have hnone : s'.curco = none := by
        by_contra hne
        obtain ⟨j, hj⟩ := Option.ne_none_iff_exists'.mp hne
        exact hn ((hcur j hj).1 ▸ hj)
      rcases hw hnone with hc | ⟨t, hc⟩
      · simp [hc] at hx
      · obtain rfl : (⟨.suspend, t⟩ : Co κ) = x := by simpa [hc] using hx
        refine ⟨rfl, fun ht => (hp i).mpr (Or.inl ⟨rfl, ?_⟩)⟩
        simp only at ht
        rw [hc, ht]
    · rw [Function.update_of_ne he] at hi
      obtain ⟨h1, h2⟩ := h.waiting i x hi fun hc => he (hold i hc)
      exact ⟨h1, fun ht => (hp i).mpr (Or.inr ⟨he, h2 ht⟩)⟩

/-- What `doTask` and `resumeTask` leave when they run `k` on `id`. -/
structure Runs (s s' : Schedule κ) (id : Nat) (k : κ) : Prop where
  ok : Ok s'
  curco : s'.curco = some id
  task : s'.task = Function.update s.task id (some k)

/-- What `yield` and the end of a task leave: the main coroutine runs. -/
structure Stops (s s' : Schedule κ) (id : Nat) (k : Option κ) : Prop where
  ok : Ok s'
  curco : s'.curco = none
  task : s'.task = Function.update s.task id k

section
variable (h : Ok s) {id : Nat}
include h

theorem resumeTask_runs (hn : s.curco = none) {k : κ} (hk : s.task id = some k) : Runs s (s.resumeTask id) id k := by
  obtain ⟨⟨st, t⟩, hc, ht⟩ := Option.bind_eq_some_iff.mp hk
  obtain rfl : t = some k := ht
  obtain ⟨hid, hle⟩ := h.range id _ hc
  have hst : st = .suspend := (h.waiting id _ hc (by simp [hn])).1
  have hp : id ∉ s.freecovec := fun hm => by simp [h.park id hm] at hc
  have hf : id ∉ s.freeid := fun hm => by simp [(h.free id hm).2.2] at hc
  have he : s.resumeTask id = { s.setCo id ⟨.running, some k⟩ with curco := some id } := by
    unfold resumeTask
    rw [if_pos (h.curid_eq.mpr hn), resume_of_co hn hid (Nat.le_trans hle h.cap) hc (Or.inl hst)]
    simp [taskFunc, setCo]
  rw [he]
  refine ⟨h.replace id rfl h.cap (Nat.le_refl _) hid hle h.freeid ?_ h.parked ?_ (by simp [hn]) ?_ ?_, rfl,
    task_setCo ..⟩
  · intro i hi
    exact Or.inr ⟨fun e => hf (e ▸ hi), hi⟩
  · intro i
    constructor
    · intro hi
      exact Or.inr ⟨fun e => hp (e ▸ hi), hi⟩
    · rintro (⟨-, h'⟩ | ⟨-, hi⟩)
      · simp at h'
      · exact hi
  · intro i hi
    exact ⟨by simpa using hi.symm, k, rfl⟩
  · simp

/-- While a task runs no other can be started or resumed: the call does nothing. -/
theorem doTask_of_running (hn : s.curco ≠ none) (k : κ) : s.doTask k = s := by
  unfold doTask
  rw [if_neg fun e => hn (h.curid_eq.mp e)]

theorem resumeTask_of_running (hn : s.curco ≠ none) (id : Nat) : s.resumeTask id = s := by
  unfold resumeTask
  rw [if_neg fun e => hn (h.curid_eq.mp e)]

theorem create_spec (c : Co κ) :
    ∃ id cap nco freeid, s.create c = ({ s with cap, nco, freeid }.setCo id c, id) ∧ 0 < id ∧ id ≤ nco ∧ nco ≤ cap ∧
      s.nco ≤ nco ∧ s.co id = none ∧ freeid.Nodup ∧ ∀ i ∈ freeid, i ≠ id ∧ i ∈ s.freeid := by
  unfold create
  cases hfree : s.freeid with
  | cons id ids =>
    obtain ⟨hid, hle, hco⟩ := h.free id (by simp [hfree])
    have hnd := h.freeid
    rw [hfree, List.nodup_cons] at hnd
    refine ⟨id, s.cap, s.nco, ids, rfl, hid, hle, h.cap, Nat.le_refl _, hco, hnd.2, fun i hi => ⟨?_, by simp [hi]⟩⟩
    exact fun e => hnd.1 (e ▸ hi)
  | nil =>
    have hco : s.co (s.nco + 1) = none := by
      by_contra hne
      obtain ⟨x, hx⟩ := Option.ne_none_iff_exists'.mp hne
      exact Nat.not_succ_le_self _ (h.range _ x hx).2
    have hcap := h.cap
    have hgrow : ∃ cap, (if s.nco = s.cap then s.allocSchedule else s) = { s with cap := cap } ∧ s.nco + 1 ≤ cap := by
      by_cases he : s.nco = s.cap
      · by_cases h0 : s.cap = 0
        · exact ⟨defaultCoroutine, by simp [he, h0, allocSchedule], by simp [he, h0, defaultCoroutine]⟩
        · exact ⟨s.cap * 2, by simp [he, h0, allocSchedule], by omega⟩
      · exact ⟨s.cap, by simp [he], by omega⟩
    obtain ⟨cap, he, hle⟩ := hgrow
    exact ⟨s.nco + 1, cap, s.nco + 1, [], by simp [he, hfree], Nat.succ_pos _, Nat.le_refl _, hle, Nat.le_succ _, hco,
      List.nodup_nil, by simp⟩

theorem doTask_runs (hn : s.curco = none) (k : κ) :
    ∃ id, 0 < id ∧ s.task id = none ∧ Runs s (s.doTask k) id k := by
  unfold doTask
  rw [if_pos (h.curid_eq.mpr hn)]
  unfold getCoTaskWrapper
  cases hfree : s.freecovec with
  | cons id ids =>
    have hco := h.park id (by simp [hfree])
    obtain ⟨hid, hle⟩ := h.range id _ hco
    have hnd := h.parked
    rw [hfree, List.nodup_cons] at hnd
    have hf : id ∉ s.freeid := fun hm => by simp [(h.free id hm).2.2] at hco
    refine ⟨id, hid, by simp [task, hco], ?_⟩
    simp only [hco]
    rw [resume_setCo (by exact hn) hid (by exact Nat.le_trans hle h.cap) (Or.inl rfl)]
    refine ⟨h.replace id rfl h.cap (Nat.le_refl _) hid hle h.freeid ?_ hnd.2 ?_ (by simp [hn]) ?_ (by simp), rfl,
      task_setCo ..⟩
    · intro i hi
      exact Or.inr ⟨fun e => hf (e ▸ hi), hi⟩
    · intro i
      by_cases he : i = id
      · subst he; simp [setCo, hnd.1]
      · simp [setCo, hfree, he]
    · intro i hi
      exact ⟨by simpa using hi.symm, k, rfl⟩
  | nil =>
    obtain ⟨id, cap, nco, freeid, hcr, hid, hle, hcap, hnco, hco, hnd, hf⟩ := create_spec h (⟨.ready, none⟩ : Co κ)
    refine ⟨id, hid, by simp [task, hco], ?_⟩
    simp only [hcr]
    have hget : ∀ q : Schedule κ, (q.setCo id ⟨.ready, none⟩).co id = some ⟨.ready, none⟩ :=
      fun q => Function.update_self ..
    have hset : ∀ a : List Nat, ({ ({ s with cap, nco, freeid }.setCo id ⟨.ready, none⟩) with alltaskwrapperset := a }.setCo id
        ⟨.ready, some k⟩) = { s with cap, nco, freeid, alltaskwrapperset := a }.setCo id ⟨.ready, some k⟩ := by
      intro a; simp [setCo]
    rw [hget]
    simp only [hset]
    rw [resume_setCo (by exact hn) hid (by exact Nat.le_trans hle hcap) (Or.inr rfl)]
    refine ⟨h.replace id rfl hcap hnco hid hle hnd ?_ h.parked ?_ (by simp [hn]) ?_ (by simp), rfl,
      task_setCo ..⟩
    · intro i hi
      exact Or.inr (hf i hi)
    · intro i
      simp [setCo, hfree]
    · intro i hi
      exact ⟨by simpa using hi.symm, k, rfl⟩

section
variable (hc : s.curco = some id)
include hc

theorem Ok.fresh_current : 0 < id ∧ id ≤ s.nco ∧ id ∉ s.freecovec ∧ id ∉ s.freeid := by
  obtain ⟨k, hk⟩ := h.current id hc
  obtain ⟨hid, hle⟩ := h.range id _ hk
  exact ⟨hid, hle, fun hm => by simp [h.park id hm] at hk, fun hm => by simp [(h.free id hm).2.2] at hk⟩

theorem Ok.setCurrent {x : Co κ} {cur : Option Nat} (hx : x ≠ ⟨.suspend, none⟩)
    (hcur : ∀ i, cur = some i → i = id ∧ ∃ k, some x = some ⟨.running, some k⟩)
    (hw : cur = none → ∃ t, some x = some ⟨.suspend, t⟩) : Ok { s.setCo id x with curco := cur } := by
  obtain ⟨hid, hle, hp, hf⟩ := h.fresh_current hc
  refine h.replace id rfl h.cap (Nat.le_refl _) hid hle h.freeid ?_ h.parked ?_ ?_ hcur fun hn => Or.inr (hw hn)
  · intro i hi
    exact Or.inr ⟨fun e => hf (e ▸ hi), hi⟩
  · intro i
    by_cases he : i = id
    · subst he; simpa [setCo, hx] using hp
    · simp [setCo, he]
  · intro i hi
    exact Option.some.inj (hi.symm.trans hc)

theorem goto_runs (k : κ) : Runs s (s.goto k) id k := by
  have he : s.goto k = s.setCo id ⟨.running, some k⟩ := by simp [goto, hc]
  have hok : Ok { s.setCo id ⟨.running, some k⟩ with curco := s.curco } := by
    refine h.setCurrent hc (by simp) ?_ ?_
    · intro i hi
      exact ⟨Option.some.inj (hi.symm.trans hc), k, rfl⟩
    · intro hn
      simp [hc] at hn
  rw [he]
  exact ⟨hok, hc, task_setCo ..⟩

theorem yield_stops (k : κ) : Stops s (s.yield k) id (some k) := by
  have he : s.yield k = { s.setCo id ⟨.suspend, some k⟩ with curco := none } := by simp [yield, hc]
  rw [he]
  exact ⟨h.setCurrent hc (by simp) (by simp) fun _ => ⟨_, rfl⟩, rfl, task_setCo ..⟩

theorem taskEnd_stops : Stops s s.taskEnd id none := by
  obtain ⟨hid, hle, hp, hf⟩ := h.fresh_current hc
  unfold taskEnd
  simp only [hc]
  have hold : ∀ i, s.curco = some i → i = id := fun i hi => Option.some.inj (hi.symm.trans hc)
  by_cases hmax : maxReserveCoroutine ≤ s.alltaskwrapperset.length
  · rw [if_pos hmax]
    refine ⟨h.replace id rfl h.cap (Nat.le_refl _) hid hle (List.nodup_cons.mpr ⟨hf, h.freeid⟩) ?_ h.parked ?_ hold
      (by simp [exit]) (fun _ => Or.inl rfl), rfl, ?_⟩
    · intro i hi
      by_cases he : i = id
      · exact Or.inl ⟨he, rfl⟩
      · exact Or.inr ⟨he, by simpa [exit, he] using hi⟩
    · intro i
      by_cases he : i = id
      · subst he; simpa [exit] using hp
      · simp [exit, he]
    · funext i
      by_cases he : i = id <;> simp [task, exit, he]
  · rw [if_neg hmax]
    refine ⟨h.replace id rfl h.cap (Nat.le_refl _) hid hle h.freeid ?_ (List.nodup_cons.mpr ⟨hp, h.parked⟩) ?_ hold
      (by simp) (fun _ => Or.inr ⟨_, rfl⟩), rfl, task_setCo ..⟩
    · intro i hi
      exact Or.inr ⟨fun e => hf (e ▸ hi), hi⟩
    · intro i
      by_cases he : i = id <;> simp [he]

end

end

end Schedule

end GlobalServer
