import GlobalServer.Lib.Runs
import GlobalServer.Transaction.Effect

/-!
# The life of a transaction

Of the effects of a step only few touch which transactions there are. A step
makes an object and starts it, or loses it; or it ends the running one; or
every object keeps what it is (`Life`). By this the application stays in
order over every step.
-/

namespace GlobalServer

open Schedule (Runs Stops)

namespace App

/-- What a transaction stays while it runs. -/
structure Keeps (t t' : Transaction) : Prop where
  type : t'.type = t.type
  transId : t'.transId = t.transId
  cmd : t'.cmd = t.cmd
  coId : t'.coId = t.coId
  timerId : t.timerId = 0 → t'.timerId = 0
  hasFrame : t.curFrameData ≠ none → t'.curFrameData ≠ none

theorem Keeps.refl (t : Transaction) : Keeps t t := ⟨rfl, rfl, rfl, rfl, id, id⟩

theorem keeps_update {a : App} {p : Nat} {t : Transaction} (h : Keeps (a.trans p) t) (q : Nat) :
    Keeps (a.trans q) (Function.update a.trans p t q) := by
  by_cases hq : q = p
  · subst hq; simpa using h
  · simp [hq, Keeps.refl]

theorem keeps_setReqRandom (a : App) (p : Nat) (r : UInt32) (q : Nat) :
    Keeps (a.trans q) ((a.setReqRandom p r).trans q) := by
  simp only [setReqRandom, setTrans_trans]
  refine keeps_update ?_ q
  exact ⟨rfl, rfl, rfl, rfl, id, fun hf => hf⟩

/-- The transactions on the coroutines. -/
def handler (a : App) (id : Nat) : Option Nat := (a.schedule.task id).map Task.trans

/-- The transaction runs on a coroutine. -/
def Running (a : App) (p : Nat) : Prop := ∃ id pc, a.schedule.task id = some ⟨p, pc⟩

theorem running_iff {a : App} {p : Nat} : a.Running p ↔ ∃ id, a.handler id = some p := by
  unfold Running handler
  constructor
  · rintro ⟨id, pc, hk⟩
    exact ⟨id, by simp [hk]⟩
  · rintro ⟨id, hk⟩
    obtain ⟨k, hid, rfl⟩ := Option.map_eq_some_iff.mp hk
    exact ⟨id, k.pc, hid⟩

/-- All coroutines but the running one stand in `Wait`. -/
def Waits (a : App) : Prop :=
  ∀ id k, a.schedule.task id = some k → a.schedule.curco ≠ some id → ∃ kind calls, k.pc = .wait kind calls

/-- What making the object `p` does. -/
structure Born (a c : App) (cmd : UInt32) (p : Nat) : Prop where
  objects : ∀ q, q < c.transTop ↔ q < a.transTop ∨ q = p
  others : ∀ q, q ≠ p → c.trans q = a.trans q
  type : (c.trans p).type = cmd
  construct : (c.trans p).construct = c.trans p
  unused : ¬ a.Running p
  free : ∀ x q, c.Free x q ↔ a.Free x q ∧ q ≠ p
  nodup : ∀ x b, c.transBucketMap x = some b → b.transVec.Nodup
  buckets : ∀ x, (∃ b, c.transBucketMap x = some b) ↔ ∃ b, a.transBucketMap x = some b
  registered : ∃ b, a.transBucketMap cmd = some b

/-- Which transactions there are after a step. -/
inductive Life (a : App) (e : Event) (a' : App) : Prop
  | keep (ok : a'.schedule.Ok) (waits : a'.Waits) (trans : ∀ p, Keeps (a.trans p) (a'.trans p))
      (handler : ∀ id, a'.handler id = a.handler id) (active : a'.activeTransMap = a.activeTransMap)
      (buckets : a'.transBucketMap = a.transBucketMap) (top : a'.transTop = a.transTop)
      (generator : a'.transIdGenerator = a.transIdGenerator)
  | start {p id : Nat} {cmd : UInt32} {c : App} {fd : Int} {frame : AppHeadFrame}
      (he : e = .dispatch fd frame (some p))
      (hd : frame.dstTransId = 0) (hc : a.schedule.curco = none) (born : Born a c cmd p)
      (ok : a'.schedule.Ok) (cur : a'.schedule.curco = some id) (new : a.schedule.task id = none)
      (task : a'.schedule.task = Function.update a.schedule.task id (some ⟨p, .start⟩))
      (others : ∀ q, q ≠ p → a'.trans q = c.trans q)
      (trans : (a'.trans p).type = cmd ∧ (a'.trans p).transId = a.transIdGenerator ∧ (a'.trans p).cmd = cmd ∧
        (a'.trans p).coId = id ∧ (a'.trans p).timerId = 0 ∧ (a'.trans p).curFrameData ≠ none)
      (active : ∀ i q, a'.getTransaction i = some q ↔
        a.getTransaction i = some q ∨ (i = a.transIdGenerator ∧ q = p ∧ a.getTransaction i = none))
      (buckets : a'.transBucketMap = c.transBucketMap) (top : a'.transTop = c.transTop)
      (generator : a'.transIdGenerator = a.transIdGenerator + 1)
  | lost {p q : Nat} {cmd : UInt32} {c : App} {fd : Int} {frame : AppHeadFrame}
      (he : e = .co q (.processFrame fd frame (some p))) (hd : frame.dstTransId = 0) (hc : a.schedule.curco ≠ none)
      (born : Born a c cmd p)
      (schedule : a'.schedule = a.schedule) (others : ∀ q, q ≠ p → a'.trans q = c.trans q)
      (type : (a'.trans p).type = cmd) (timer : (a'.trans p).timerId = 0)
      (active : a'.activeTransMap = a.activeTransMap)
      (buckets : a'.transBucketMap = c.transBucketMap) (top : a'.transTop = c.transTop)
      (generator : a'.transIdGenerator = a.transIdGenerator + 1)
  | exit {p id : Nat} {act : Act} (he : e = .co p act) (cur : a.schedule.curco = some id)
      (run : a.handler id = some p)
      (hs : Stops a.schedule a'.schedule id none) (trans : a'.trans = a.trans)
      (active : ∀ i q, a'.getTransaction i = some q ↔ a.getTransaction i = some q ∧ i ≠ (a.trans p).transId)
      (free : ∀ x q, a'.Free x q ↔ a.Free x q ∨ (x = (a.trans p).type ∧ q = p))
      (nodup : ∀ x b, a'.transBucketMap x = some b → b.transVec.Nodup)
      (buckets : ∀ x, (∃ b, a'.transBucketMap x = some b) ↔ ∃ b, a.transBucketMap x = some b)
      (top : a'.transTop = a.transTop) (generator : a'.transIdGenerator = a.transIdGenerator)

/-! ## Each effect is one of these -/

theorem Created.born {a c : App} (h : Sound a) {cmd : UInt32} {p : Nat} (hn : Created a cmd p c) :
    Born a c cmd p := by
  have hcon := hn.constructed
  cases hn with
  | @new b hb he =>
    have hfresh : ∀ x, ¬ a.Free x a.transTop := fun x hf => Nat.lt_irrefl _ (h.free x _ hf).1
    refine ⟨?_, ?_, by simp [Transaction.new, Transaction.construct], hcon.construct, ?_, ?_, h.nodup, by simp, ⟨b, hb⟩⟩
    · intro q; simp only [newTrans_transTop]; omega
    · intro q hq; simp [hq]
    · rintro ⟨id, pc, hk⟩
      exact Nat.lt_irrefl _ (h.owner id _ hk).1
    · intro x q
      constructor
      · intro hf
        exact ⟨hf, fun e => hfresh x (e ▸ hf)⟩
      · intro hf
        exact hf.1
  | @reuse b p ps hb he =>
    have hfree : a.Free cmd p := ⟨b, hb, by simp [he]⟩
    obtain ⟨hlt, htype, hun⟩ := h.free cmd p hfree
    have hnd := h.nodup cmd b hb
    rw [he, List.nodup_cons] at hnd
    refine ⟨?_, ?_, by simpa [Transaction.construct] using htype, hcon.construct, ?_, ?_, ?_, ?_, ⟨b, hb⟩⟩
    · intro q; simp only [setBucket_transTop, setTrans_transTop]
      constructor
      · intro hq; exact Or.inl hq
      · rintro (hq | rfl)
        · exact hq
        · exact hlt
    · intro q hq; simp [hq]
    · rintro ⟨id, pc, hk⟩
      exact hun id _ hk rfl
    · intro x q
      by_cases hx : x = cmd
      · subst hx
        simp only [Free, setBucket_transBucketMap, Function.update_self, Option.some.injEq, exists_eq_left', hb, he,
          List.mem_cons]
        constructor
        · intro hq
          exact ⟨Or.inr hq, fun e => hnd.1 (e ▸ hq)⟩
        · rintro ⟨rfl | hq, hne⟩
          · exact absurd rfl hne
          · exact hq
      · simp only [Free, setBucket_transBucketMap, Function.update_of_ne hx, setTrans_transBucketMap]
        constructor
        · intro hq
          refine ⟨hq, fun e => hx ?_⟩
          rw [← (h.free x q hq).2.1, e, htype]
        · intro hq
          exact hq.1
    · intro x b' hb'
      by_cases hx : x = cmd
      · subst hx
        have : b' = { b with transVec := ps } := by simpa using hb'.symm
        rw [this]
        exact hnd.2
      · simp only [setBucket_transBucketMap, Function.update_of_ne hx, setTrans_transBucketMap] at hb'
        exact h.nodup x b' hb'
    · intro x
      by_cases hx : x = cmd
      · subst hx; simp [hb]
      · simp [hx]

theorem waits_of_runs {a : App} (h : Sound a) {s : Schedule Task} {id : Nat} {k : Task} (hr : Runs a.schedule s id k)
    (hc : a.schedule.curco = none ∨ a.schedule.curco = some id) {i : Nat} {k' : Task} (hk : s.task i = some k')
    (hn : s.curco ≠ some i) : ∃ kind calls, k'.pc = .wait kind calls := by
  have hi : i ≠ id := fun e => hn (by rw [hr.curco, e])
  rw [hr.task, Function.update_of_ne hi] at hk
  refine h.waits i k' hk ?_
  rcases hc with hc | hc <;> simp [hc, Ne.symm hi]

theorem handler_update {a : App} {s : Schedule Task} {id p : Nat} {pc pc' : Pc}
    (hk : a.schedule.task id = some ⟨p, pc⟩)
    (ht : s.task = Function.update a.schedule.task id (some ⟨p, pc'⟩)) (i : Nat) :
    (s.task i).map Task.trans = a.handler i := by
  unfold handler
  rw [ht]
  by_cases hi : i = id
  · subst hi; simp [hk]
  · simp [hi]

section
variable {a b a' : App} {e : Event}

theorem life_runs (h : Sound a) {s : Schedule Task} {id p : Nat} {pc pc' : Pc} {t : Transaction}
    (hk : a.schedule.task id = some ⟨p, pc⟩) (hr : Runs a.schedule s id ⟨p, pc'⟩)
    (hc : a.schedule.curco = none ∨ a.schedule.curco = some id) (hs : a'.schedule = s)
    (ht : a'.trans = Function.update a.trans p t) (hkeep : Keeps (a.trans p) t)
    (hrest : a'.activeTransMap = a.activeTransMap ∧ a'.transBucketMap = a.transBucketMap ∧ a'.transTop = a.transTop ∧
      a'.transIdGenerator = a.transIdGenerator) : Life a e a' := by
  subst hs
  refine .keep hr.ok (fun i k' hi hn => waits_of_runs h hr hc hi hn) ?_ (handler_update hk hr.task) hrest.1 hrest.2.1 hrest.2.2.1
    hrest.2.2.2
  intro q
  rw [ht]
  exact keeps_update hkeep q

theorem life_stops (h : Sound a) {s : Schedule Task} {id p : Nat} {pc : Pc} {kind : WaitKind} {calls : List Call}
    (hc : a.schedule.curco = some id) (hk : a.schedule.task id = some ⟨p, pc⟩)
    (hr : Stops a.schedule s id (some ⟨p, .wait kind calls⟩)) (hs : a'.schedule = s)
    (ht : ∀ q, Keeps (a.trans q) (a'.trans q))
    (hrest : a'.activeTransMap = a.activeTransMap ∧ a'.transBucketMap = a.transBucketMap ∧ a'.transTop = a.transTop ∧
      a'.transIdGenerator = a.transIdGenerator) : Life a e a' := by
  subst hs
  refine .keep hr.ok (fun i k hi hn => ?_) ht (handler_update hk hr.task) hrest.1 hrest.2.1 hrest.2.2.1 hrest.2.2.2
  rw [hr.task] at hi
  by_cases hid : i = id
  · subst hid
    obtain rfl : (⟨p, .wait kind calls⟩ : Task) = k := by simpa using hi
    exact ⟨kind, calls, rfl⟩
  · rw [Function.update_of_ne hid] at hi
    exact h.waits i k hi (by simp [hc, Ne.symm hid])

theorem life_same (h : Sound a) (hs : a'.schedule = a.schedule) (ht : ∀ q, Keeps (a.trans q) (a'.trans q))
    (hrest : a'.activeTransMap = a.activeTransMap ∧ a'.transBucketMap = a.transBucketMap ∧ a'.transTop = a.transTop ∧
      a'.transIdGenerator = a.transIdGenerator) : Life a e a' := by
  refine .keep (by rw [hs]; exact h.sched) ?_ ht ?_ hrest.1 hrest.2.1 hrest.2.2.1 hrest.2.2.2
  · unfold Waits; rw [hs]; exact h.waits
  · intro id; unfold handler; rw [hs]

theorem keeps_answered (t : Transaction) (fd : Int) (m : Nat) : Keeps t (answered t fd m) :=
  ⟨rfl, rfl, rfl, rfl, id, by simp [answered]⟩

/-- `ProcessFrame` is called on `a` but for the loop and the messages. -/
structure SameButLoop (a b : App) : Prop where
  schedule : b.schedule = a.schedule
  trans : b.trans = a.trans
  active : b.activeTransMap = a.activeTransMap
  buckets : b.transBucketMap = a.transBucketMap
  top : b.transTop = a.transTop
  generator : b.transIdGenerator = a.transIdGenerator

theorem SameButLoop.sound (hab : SameButLoop a b) (h : Sound a) : Sound b := by
  refine ⟨?_, ?_, ?_, ?_, ?_, ?_, ?_, ?_⟩
  · rw [hab.schedule]; exact h.sched
  · rw [hab.schedule, hab.trans, hab.top]; exact h.owner
  · rw [hab.schedule]; exact h.waits
  · simp only [getTransaction, hab.active, hab.trans, hab.schedule]; exact h.active
  · rw [hab.trans]; exact h.timer
  · rw [hab.trans, hab.top, hab.buckets]; exact h.made
  · rw [hab.buckets]; exact h.nodup
  · simp only [Free, hab.schedule, hab.trans, hab.top, hab.buckets]; exact h.free

theorem SameButLoop.born (hab : SameButLoop a b) {c : App} {cmd : UInt32} {p : Nat} (hn : Born b c cmd p) :
    Born a c cmd p := by
  refine ⟨?_, ?_, hn.type, hn.construct, ?_, ?_, hn.nodup, ?_, ?_⟩
  · simpa [hab.top] using hn.objects
  · simpa [hab.trans] using hn.others
  · simpa [Running, hab.schedule] using hn.unused
  · simpa [Free, hab.buckets] using hn.free
  · simpa [hab.buckets] using hn.buckets
  · simpa [hab.buckets] using hn.registered

theorem life_start (h : Sound a) (hab : SameButLoop a b) {p id : Nat} {c : App} {s : Schedule Task} {fd : Int}
    {frame : AppHeadFrame} {m : Nat} (hc : b.schedule.curco = none) (hd : frame.dstTransId = 0)
    (hn : Created b frame.cmd p c) (hid : b.schedule.task id = none) (hs : Runs b.schedule s id ⟨p, .start⟩) :
    Life a (.dispatch fd frame (some p))
      (((c.generatorTransId.setTrans p { started b (c.trans p) fd frame m with coId := id }).setSchedule s).insertActive
        b.transIdGenerator p) := by
  have hcon := hn.constructed
  have hborn := hab.born (hn.born (hab.sound h))
  obtain ⟨-, h0, -⟩ := construct_fields hcon.construct
  obtain ⟨map, hins, hl⟩ := insertActive_eq
    ((c.generatorTransId.setTrans p { started b (c.trans p) fd frame m with coId := id }).setSchedule s) b.transIdGenerator p
  have hact : c.activeTransMap = a.activeTransMap := by rw [hcon.eq]; exact hab.active
  have htask := hs.task
  rw [hab.schedule] at hc hid htask
  rw [hins]
  refine .start rfl hd hc hborn hs.ok hs.curco hid htask ?_ ?_ ?_ rfl rfl ?_
  · intro q hq
    simp [hq]
  · simp [started, h0, hborn.type, hab.generator]
  · intro i q
    have := hl i q
    simp only [setSchedule_activeTransMap, setTrans_activeTransMap, generatorTransId_activeTransMap, hact,
      hab.generator] at this
    simp only [getTransaction, this]
    constructor
    · rintro (hq | ⟨rfl, rfl, hq⟩)
      · exact Or.inl hq
      · exact Or.inr ⟨rfl, rfl, AList.lookup_eq_none.mpr hq⟩
    · rintro (hq | ⟨rfl, rfl, hq⟩)
      · exact Or.inl hq
      · exact Or.inr ⟨rfl, rfl, AList.lookup_eq_none.mp hq⟩
  · simp only [setSchedule_transIdGenerator, setTrans_transIdGenerator, generatorTransId_transIdGenerator]
    rw [hcon.eq]
    simp [hab.generator]

theorem life_lost (h : Sound a) (hab : SameButLoop a b) {p q : Nat} {c : App} {fd : Int} {frame : AppHeadFrame} {m : Nat}
    (hc : b.schedule.curco ≠ none) (hd : frame.dstTransId = 0) (hn : Created b frame.cmd p c) :
    Life a (.co q (.processFrame fd frame (some p)))
      (c.generatorTransId.setTrans p (started b (c.trans p) fd frame m)) := by
  have hcon := hn.constructed
  have hborn := hab.born (hn.born (hab.sound h))
  obtain ⟨-, h0, -⟩ := construct_fields hcon.construct
  rw [hab.schedule] at hc
  refine .lost rfl hd hc hborn ?_ ?_ ?_ ?_ ?_ rfl rfl ?_
  · simp only [setTrans_schedule, generatorTransId_schedule]
    rw [hcon.eq]; exact hab.schedule
  · intro q hq
    simp [hq]
  · simpa [started] using hborn.type
  · simpa [started] using h0
  · simp only [setTrans_activeTransMap, generatorTransId_activeTransMap]
    rw [hcon.eq]; exact hab.active
  · simp only [setTrans_transIdGenerator, generatorTransId_transIdGenerator]
    rw [hcon.eq]
    simp [hab.generator]

theorem framed_life (h : Sound a) (hab : SameButLoop a b) {fd : Int} {frame : AppHeadFrame} {m : Nat}
    {target : Option Nat}
    (hf : Framed b fd frame m target a')
    (he : a.schedule.curco = none ∧ e = .dispatch fd frame target ∨
      a.schedule.curco ≠ none ∧ ∃ q, e = .co q (.processFrame fd frame target)) : Life a e a' := by
  have hrest : ∀ x : App, x.activeTransMap = b.activeTransMap ∧ x.transBucketMap = b.transBucketMap ∧
      x.transTop = b.transTop ∧ x.transIdGenerator = b.transIdGenerator → x.activeTransMap = a.activeTransMap ∧
      x.transBucketMap = a.transBucketMap ∧ x.transTop = a.transTop ∧ x.transIdGenerator = a.transIdGenerator := by
    rintro x ⟨h1, h2, h3, h4⟩
    exact ⟨h1.trans hab.active, h2.trans hab.buckets, h3.trans hab.top, h4.trans hab.generator⟩
  have hkeep : ∀ p q, Keeps (a.trans q) (Function.update b.trans p (answered (b.trans p) fd m) q) := by
    intro p q
    rw [hab.trans]
    exact keeps_update (keeps_answered _ fd m) q
  cases hf with
  | none hf => exact life_same h hab.schedule (fun q => by rw [hab.trans]; exact .refl _) (hrest _ ⟨rfl, rfl, rfl, rfl⟩)
  | reject hd hp hr =>
    exact life_same h hab.schedule (fun q => by rw [hab.trans]; exact .refl _) (hrest _ ⟨rfl, rfl, rfl, rfl⟩)
  | store hc hd hp hr => exact life_same h hab.schedule (hkeep _) (hrest _ ⟨rfl, rfl, rfl, rfl⟩)
  | @resume p id kind calls s hc hd hp hr hk hs =>
    rw [hab.schedule] at hc hk hs
    refine life_runs h hk hs (Or.inl hc) rfl (t := answered (a.trans p) fd m) ?_ (keeps_answered _ fd m)
      (hrest _ ⟨rfl, rfl, rfl, rfl⟩)
    funext q
    simp [hab.trans]
  | start hc hd hn hid hs =>
    rcases he with ⟨-, rfl⟩ | ⟨hne, -⟩
    · exact life_start h hab hc hd hn hid hs
    · exact absurd (hab.schedule ▸ hc) hne
  | lost hc hd hn =>
    rcases he with ⟨hn', -⟩ | ⟨-, q, rfl⟩
    · exact absurd (hab.schedule ▸ hn') hc
    · exact life_lost h hab hc hd hn

theorem life_exit (h : Sound a) {p id : Nat} {pc : Pc} {act : Act} {b : TransactionBucket} {s : Schedule Task}
    (hc : a.schedule.curco = some id) (hk : a.schedule.task id = some ⟨p, pc⟩)
    (hb : a.transBucketMap (a.trans p).cmd = some b) (hs : Stops a.schedule s id none) :
    Life a (.co p act)
      (((a.eraseActive (a.trans p).transId).setBucket (a.trans p).cmd { b with transVec := p :: b.transVec }).setSchedule s) := by
  have hcmd : (a.trans p).cmd = (a.trans p).type := (h.owner id _ hk).2.2.2
  have hnot : p ∉ b.transVec := fun hm => (h.free _ p ⟨b, hb, hm⟩).2.2 id _ hk rfl
  refine .exit (p := p) rfl hc (by simp [handler, hk]) hs rfl ?_ ?_ ?_ ?_ rfl rfl
  · intro i q
    simp only [getTransaction, setSchedule_activeTransMap, setBucket_activeTransMap, eraseActive_activeTransMap]
    by_cases hi : i = (a.trans p).transId
    · subst hi; simp
    · simp [AList.lookup_erase_ne hi, hi]
  · intro x q
    simp only [Free, setSchedule_transBucketMap, setBucket_transBucketMap, ← hcmd]
    by_cases hx : x = (a.trans p).cmd
    · subst hx; simp [hb, or_comm]
    · simp [hx]
  · intro x b' hb'
    by_cases hx : x = (a.trans p).cmd
    · subst hx
      obtain rfl : { b with transVec := p :: b.transVec } = b' := by simpa using hb'
      exact List.nodup_cons.mpr ⟨hnot, h.nodup _ b hb⟩
    · exact h.nodup x b' (by simpa [hx] using hb')
  · intro x
    by_cases hx : x = (a.trans p).cmd
    · subst hx; simp [hb]
    · simp [hx]

theorem effect_life (h : Sound a) (he : Effect a e a') : Life a e a' := by
  have hself : ∀ q, Keeps (a.trans q) (a.trans q) := fun q => .refl _
  cases he with
  | update hi => exact life_same h rfl hself ⟨rfl, rfl, rfl, rfl⟩
  | tick hc hu hn ht => exact life_same h rfl hself ⟨rfl, rfl, rfl, rfl⟩
  | @fire node p id cb u pool kind calls s hc hu hn hp hk hs =>
    exact life_runs h hk hs (Or.inl hc) rfl (funext fun q => setTrans_trans ..) ⟨rfl, rfl, rfl, rfl, fun _ => rfl,
      fun hf => hf⟩
      ⟨rfl, rfl, rfl, rfl⟩
  | dispatch hi hf =>
    exact framed_life h (by exact ⟨rfl, rfl, rfl, rfl, rfl, rfl⟩) hf (Or.inl ⟨(idle_spec.mp hi).1, rfl⟩)
  | mysqlNone hi hq hp => exact life_same h rfl hself ⟨rfl, rfl, rfl, rfl⟩
  | mysqlRsp hi hq hp hk hs =>
    exact life_runs h hk hs (Or.inl (idle_spec.mp hi).1) rfl (funext fun q => setTrans_trans ..)
      ⟨rfl, rfl, rfl, rfl, id, fun hf => hf⟩ ⟨rfl, rfl, rfl, rfl⟩
  | redisNone hi hq hp => exact life_same h rfl hself ⟨rfl, rfl, rfl, rfl⟩
  | redisRsp hi hq hp hk hs =>
    exact life_runs h hk hs (Or.inl (idle_spec.mp hi).1) rfl (funext fun q => setTrans_trans ..)
      ⟨rfl, rfl, rfl, rfl, id, fun hf => hf⟩ ⟨rfl, rfl, rfl, rfl⟩
  | dispatched hc hl => exact life_same h rfl hself ⟨rfl, rfl, rfl, rfl⟩
  | recycle hl => exact life_same h rfl hself ⟨rfl, rfl, rfl, rfl⟩
  | routers => exact life_same h rfl hself ⟨rfl, rfl, rfl, rfl⟩
  | @parse p id m frame s hc hk hm hsh hs =>
    exact life_runs h hk hs (Or.inr hc) rfl (Function.update_eq_self p a.trans).symm (.refl _) ⟨rfl, rfl, rfl, rfl⟩
  | curFrame hc hk hm hsh => exact life_same h rfl hself ⟨rfl, rfl, rfl, rfl⟩
  | sendMsg hc hk hr =>
    exact life_same h rfl (keeps_setReqRandom a _ _) ⟨rfl, rfl, rfl, rfl⟩
  | nested hc hk hf =>
    exact framed_life h (by exact ⟨rfl, rfl, rfl, rfl, rfl, rfl⟩) hf (Or.inr ⟨by simp [hc], _, rfl⟩)
  | @suspend p id tid calls act b now interval kind pool s hc hk ha hp hs =>
    cases ha with
    | callMsg hr =>
      exact life_stops h hc hk hs rfl (keeps_setReqRandom a p _) ⟨rfl, rfl, rfl, rfl⟩
    | _ => exact life_stops h hc hk hs rfl hself ⟨rfl, rfl, rfl, rfl⟩
  | @woke p id calls kind ret seen t pc s hc hk hr hw hs =>
    refine life_runs h hk hs (Or.inr hc) rfl (funext fun q => setTrans_trans ..) ?_ ⟨rfl, rfl, rfl, rfl⟩
    cases hw <;> exact ⟨rfl, rfl, rfl, rfl, fun ht => ht, fun hf => hf⟩
  | @rowNext p id n call calls s hc hk hn hs =>
    exact life_runs h hk hs (Or.inr hc) rfl (Function.update_eq_self p a.trans).symm (.refl _) ⟨rfl, rfl, rfl, rfl⟩
  | rowEnd hc hk hn hsh hs =>
    exact life_runs h hk hs (Or.inr hc) rfl (funext fun q => setTrans_trans ..) ⟨rfl, rfl, rfl, rfl, id, fun hf => hf⟩
      ⟨rfl, rfl, rfl, rfl⟩
  | exit hc hk he hb hs => exact life_exit h hc hk hb hs

/-! ## Who runs after a step -/

theorem running_keep (hh : ∀ id, a'.handler id = a.handler id) {q : Nat} : a'.Running q ↔ a.Running q := by
  simp only [running_iff, hh]

theorem running_same (hs : a'.schedule = a.schedule) {q : Nat} : a'.Running q ↔ a.Running q := by
  unfold Running; rw [hs]

theorem running_start {id p : Nat} (new : a.schedule.task id = none)
    (task : a'.schedule.task = Function.update a.schedule.task id (some ⟨p, .start⟩)) {q : Nat} :
    a'.Running q ↔ a.Running q ∨ q = p := by
  unfold Running
  rw [task]
  constructor
  · rintro ⟨i, pc, hk⟩
    by_cases hi : i = id
    · subst hi
      exact Or.inr (by simpa [eq_comm] using (show p = q ∧ _ by simpa using hk).1)
    · exact Or.inl ⟨i, pc, by rwa [Function.update_of_ne hi] at hk⟩
  · rintro (⟨i, pc, hk⟩ | rfl)
    · have hi : i ≠ id := fun e => by simp [e, new] at hk
      exact ⟨i, pc, by rwa [Function.update_of_ne hi]⟩
    · exact ⟨id, .start, by simp⟩

theorem running_exit (h : Sound a) {id p : Nat} (run : a.handler id = some p)
    (hs : Stops a.schedule a'.schedule id none)
    {q : Nat} : a'.Running q ↔ a.Running q ∧ q ≠ p := by
  obtain ⟨kp, hkp, rfl⟩ := Option.map_eq_some_iff.mp run
  unfold Running
  rw [hs.task]
  constructor
  · rintro ⟨i, pc, hk⟩
    by_cases hi : i = id
    · subst hi; simp at hk
    · rw [Function.update_of_ne hi] at hk
      refine ⟨⟨i, pc, hk⟩, fun e => hi ?_⟩
      have h1 := (h.owner i _ hk).2.1
      have h2 := (h.owner id kp hkp).2.1
      simp only [e] at h1
      exact h1.symm.trans h2
  · rintro ⟨⟨i, pc, hk⟩, hne⟩
    have hi : i ≠ id := by
      rintro rfl
      exact hne (congrArg Task.trans (Option.some.inj (hk.symm.trans hkp)))
    exact ⟨i, pc, by rwa [Function.update_of_ne hi]⟩

/-! ## The application stays in order -/

/-- The object is a transaction now, and no other has changed. -/
structure Used (a a' : App) (cmd : UInt32) (p : Nat) : Prop where
  top : ∀ q, q < a'.transTop ↔ q < a.transTop ∨ q = p
  others : ∀ q, q ≠ p → a'.trans q = a.trans q
  type : (a'.trans p).type = cmd
  timer : (a'.trans p).timerId = 0
  unused : ∀ i k, a.schedule.task i = some k → k.trans ≠ p
  free : ∀ x q, a'.Free x q → a.Free x q ∧ q ≠ p
  nodup : ∀ x b, a'.transBucketMap x = some b → b.transVec.Nodup
  buckets : ∀ x, (∃ b, a'.transBucketMap x = some b) ↔ ∃ b, a.transBucketMap x = some b
  registered : ∃ b, a.transBucketMap cmd = some b

theorem Born.used {c : App} {cmd : UInt32} {p : Nat} (born : Born a c cmd p)
    (others : ∀ q, q ≠ p → a'.trans q = c.trans q) (type : (a'.trans p).type = cmd) (timer : (a'.trans p).timerId = 0)
    (buckets : a'.transBucketMap = c.transBucketMap) (top : a'.transTop = c.transTop) : Used a a' cmd p where
  top := by rw [top]; exact born.objects
  others q hq := (others q hq).trans (born.others q hq)
  type := type
  timer := timer
  unused i k hk e := born.unused ⟨i, k.pc, by rw [hk, ← e]⟩
  free x q hq := (born.free x q).mp (by simpa [Free, buckets] using hq)
  nodup := by rw [buckets]; exact born.nodup
  buckets := by rw [buckets]; exact born.buckets
  registered := born.registered

section
variable {cmd : UInt32} {p : Nat} (h : Sound a) (hu : Used a a' cmd p)
include h hu

theorem Used.owner {i : Nat} {k : Task} (hk : a.schedule.task i = some k) :
    k.trans < a'.transTop ∧ (a'.trans k.trans).coId = i ∧ (a'.trans k.trans).curFrameData ≠ none ∧
      (a'.trans k.trans).cmd = (a'.trans k.trans).type := by
  obtain ⟨hlt, hrest⟩ := h.owner i k hk
  rw [hu.others _ (hu.unused i k hk)]
  exact ⟨(hu.top _).mpr (.inl hlt), hrest⟩

theorem Used.transId {i : UInt32} {q : Nat} (hq : a.getTransaction i = some q) : (a'.trans q).transId = i := by
  obtain ⟨hi, j, pc, hk⟩ := h.active i q hq
  rw [hu.others q (hu.unused j _ hk)]
  exact hi

theorem Used.timerId (q : Nat) : (a'.trans q).timerId = 0 := by
  by_cases hq : q = p
  · subst hq
    exact hu.timer
  · rw [hu.others q hq]
    exact h.timer q

theorem Used.made {q : Nat} (hq : q < a'.transTop) : ∃ b, a'.transBucketMap (a'.trans q).type = some b := by
  apply (hu.buckets _).mpr
  by_cases hqp : q = p
  · subst hqp
    rw [hu.type]
    exact hu.registered
  · rw [hu.others q hqp]
    exact h.made q (((hu.top q).mp hq).resolve_right hqp)

theorem Used.apart {x : UInt32} {q : Nat} (hq : a'.Free x q) :
    q < a'.transTop ∧ (a'.trans q).type = x ∧ q ≠ p ∧ ∀ i k, a.schedule.task i = some k → k.trans ≠ q := by
  obtain ⟨hf, hne⟩ := hu.free x q hq
  obtain ⟨hlt, htype, hk⟩ := h.free x q hf
  rw [hu.others q hne]
  exact ⟨(hu.top q).mpr (.inl hlt), htype, hne, hk⟩

end

theorem sound_keep (h : Sound a) (ok : a'.schedule.Ok) (waits : a'.Waits) (trans : ∀ p, Keeps (a.trans p) (a'.trans p))
    (handler : ∀ id, a'.handler id = a.handler id) (active : a'.activeTransMap = a.activeTransMap)
    (buckets : a'.transBucketMap = a.transBucketMap) (top : a'.transTop = a.transTop) : Sound a' := by
  have back : ∀ id k, a'.schedule.task id = some k → ∃ k', a.schedule.task id = some k' ∧ k'.trans = k.trans := by
    intro id k hk
    have := handler id
    simp only [App.handler, hk, Option.map_some] at this
    exact Option.map_eq_some_iff.mp this.symm
  refine ⟨ok, ?_, waits, ?_, ?_, ?_, ?_, ?_⟩
  · intro id k hk
    obtain ⟨k', hk', he⟩ := back id k hk
    obtain ⟨h1, h2, h3, h4⟩ := h.owner id k' hk'
    rw [← he]
    have ht := trans k'.trans
    exact ⟨by rw [top]; exact h1, by rw [ht.coId]; exact h2, ht.hasFrame h3, by rw [ht.cmd, ht.type]; exact h4⟩
  · intro i p hp
    rw [getTransaction, active] at hp
    obtain ⟨h1, id, pc, hk⟩ := h.active i p hp
    refine ⟨by rw [(trans p).transId]; exact h1, running_iff.mpr ⟨id, ?_⟩⟩
    rw [handler, App.handler, hk]
    rfl
  · intro p
    exact (trans p).timerId (h.timer p)
  · intro p hp
    rw [top] at hp
    rw [(trans p).type, buckets]
    exact h.made p hp
  · rw [buckets]; exact h.nodup
  · intro x p hp
    simp only [Free, buckets] at hp
    obtain ⟨h1, h2, h3⟩ := h.free x p hp
    refine ⟨by rw [top]; exact h1, by rw [(trans p).type]; exact h2, fun id k hk => ?_⟩
    obtain ⟨k', hk', he⟩ := back id k hk
    rw [← he]
    exact h3 id k' hk'

theorem sound_start (h : Sound a) {p id : Nat} {cmd : UInt32} (hu : Used a a' cmd p) (hc : a.schedule.curco = none)
    (ok : a'.schedule.Ok) (cur : a'.schedule.curco = some id) (new : a.schedule.task id = none)
    (task : a'.schedule.task = Function.update a.schedule.task id (some ⟨p, .start⟩))
    (transId : (a'.trans p).transId = a.transIdGenerator) (hcmd : (a'.trans p).cmd = cmd)
    (coId : (a'.trans p).coId = id) (hasFrame : (a'.trans p).curFrameData ≠ none)
    (active : ∀ i q, a'.getTransaction i = some q ↔
      a.getTransaction i = some q ∨ (i = a.transIdGenerator ∧ q = p ∧ a.getTransaction i = none)) : Sound a' := by
  -- a coroutine is the new one or an old one
  have back : ∀ {i k}, a'.schedule.task i = some k → i = id ∧ k = ⟨p, .start⟩ ∨ i ≠ id ∧ a.schedule.task i = some k := by
    intro i k hk
    rw [task] at hk
    by_cases hi : i = id
    · subst hi
      exact .inl ⟨rfl, (by simpa using hk.symm)⟩
    · exact .inr ⟨hi, by rwa [Function.update_of_ne hi] at hk⟩
  refine ⟨ok, ?_, ?_, ?_, hu.timerId h, fun q hq => hu.made h hq, hu.nodup, ?_⟩
  · intro i k hk
    rcases back hk with ⟨rfl, rfl⟩ | ⟨-, hk⟩
    · exact ⟨(hu.top p).mpr (.inr rfl), coId, hasFrame, hcmd.trans hu.type.symm⟩
    · exact hu.owner h hk
  · intro i k hk hn
    rcases back hk with ⟨rfl, -⟩ | ⟨-, hk⟩
    · exact absurd cur hn
    · exact h.waits i k hk (by simp [hc])
  · intro i q hq
    rcases (active i q).mp hq with hq | ⟨rfl, rfl, -⟩
    · obtain ⟨-, j, pc, hk⟩ := h.active i q hq
      have hj : j ≠ id := by
        intro e
        subst e
        simp [new] at hk
      refine ⟨hu.transId h hq, j, pc, ?_⟩
      rw [task, Function.update_of_ne hj]
      exact hk
    · exact ⟨transId, id, .start, by simp [task]⟩
  · intro x q hq
    obtain ⟨hlt, htype, hne, hrest⟩ := hu.apart h hq
    refine ⟨hlt, htype, fun i k hk => ?_⟩
    rcases back hk with ⟨-, rfl⟩ | ⟨-, hk⟩
    · exact hne.symm
    · exact hrest i k hk

theorem sound_lost (h : Sound a) {p : Nat} {cmd : UInt32} (hu : Used a a' cmd p) (schedule : a'.schedule = a.schedule)
    (active : a'.activeTransMap = a.activeTransMap) : Sound a' := by
  refine ⟨by rw [schedule]; exact h.sched, ?_, by rw [schedule]; exact h.waits, ?_, hu.timerId h,
    fun q hq => hu.made h hq, hu.nodup, ?_⟩
  · intro i k hk
    rw [schedule] at hk
    exact hu.owner h hk
  · intro i q hq
    rw [getTransaction, active] at hq
    obtain ⟨-, j, pc, hk⟩ := h.active i q hq
    exact ⟨hu.transId h hq, j, pc, by rw [schedule]; exact hk⟩
  · intro x q hq
    obtain ⟨hlt, htype, -, hrest⟩ := hu.apart h hq
    exact ⟨hlt, htype, by rw [schedule]; exact hrest⟩

theorem sound_exit (h : Sound a) {p id : Nat} (cur : a.schedule.curco = some id) (run : a.handler id = some p)
    (hs : Stops a.schedule a'.schedule id none) (trans : a'.trans = a.trans)
    (active : ∀ i q, a'.getTransaction i = some q ↔ a.getTransaction i = some q ∧ i ≠ (a.trans p).transId)
    (free : ∀ x q, a'.Free x q ↔ a.Free x q ∨ (x = (a.trans p).type ∧ q = p))
    (nodup : ∀ x b, a'.transBucketMap x = some b → b.transVec.Nodup)
    (buckets : ∀ x, (∃ b, a'.transBucketMap x = some b) ↔ ∃ b, a.transBucketMap x = some b)
    (top : a'.transTop = a.transTop) : Sound a' := by
  obtain ⟨kp, hkp, hp⟩ := Option.map_eq_some_iff.mp run
  have back : ∀ i k, a'.schedule.task i = some k → a.schedule.task i = some k ∧ k.trans ≠ p := by
    intro i k hk
    rw [hs.task] at hk
    by_cases hi : i = id
    · subst hi; simp at hk
    · rw [Function.update_of_ne hi] at hk
      refine ⟨hk, fun e => hi ?_⟩
      have h1 := (h.owner i k hk).2.1
      have h2 := (h.owner id kp hkp).2.1
      rw [e] at h1
      rw [hp] at h2
      exact h1.symm.trans h2
  refine ⟨hs.ok, ?_, ?_, ?_, ?_, ?_, nodup, ?_⟩
  · intro i k hk
    rw [trans, top]
    exact h.owner i k (back i k hk).1
  · intro i k hk hn
    refine h.waits i k (back i k hk).1 fun hc => (back i k hk).2 ?_
    obtain rfl : id = i := Option.some.inj (cur.symm.trans hc)
    rw [← hp, Option.some.inj ((back _ k hk).1.symm.trans hkp)]
  · intro i q hq
    obtain ⟨hq, hne⟩ := (active i q).mp hq
    obtain ⟨h1, j, pc, hk⟩ := h.active i q hq
    refine ⟨by rw [trans]; exact h1, j, pc, ?_⟩
    have hj : j ≠ id := by
      rintro rfl
      have : kp = ⟨q, pc⟩ := Option.some.inj (hkp.symm.trans hk)
      apply hne
      rw [← h1, ← hp, this]
    rw [hs.task, Function.update_of_ne hj]
    exact hk
  · rw [trans]; exact h.timer
  · intro q hq
    rw [top] at hq
    rw [trans]
    exact (buckets _).mpr (h.made q hq)
  · intro x q hq
    rw [trans, top]
    rcases (free x q).mp hq with hq | ⟨rfl, rfl⟩
    · obtain ⟨h1, h2, h3⟩ := h.free x q hq
      exact ⟨h1, h2, fun i k hk => h3 i k (back i k hk).1⟩
    · have := (h.owner id kp hkp).1
      rw [hp] at this
      exact ⟨this, rfl, fun i k hk => (back i k hk).2⟩

theorem sound_life (h : Sound a) (hl : Life a e a') : Sound a' := by
  cases hl with
  | keep ok waits trans handler active buckets top => exact sound_keep h ok waits trans handler active buckets top
  | start he hd hc born ok cur new task others trans active buckets top =>
    obtain ⟨htype, htid, hcmd, hco, htimer, hframe⟩ := trans
    exact sound_start h (born.used others htype htimer buckets top) hc ok cur new task htid hcmd hco hframe active
  | lost he hd hc born schedule others type timer active buckets top =>
    exact sound_lost h (born.used others type timer buckets top) schedule active
  | exit he cur run hs trans active free nodup buckets top =>
    exact sound_exit h cur run hs trans active free nodup buckets top

theorem step_sound (h : Sound a) (hs : a.step e = some a') : Sound a' :=
  sound_life h (effect_life h (step_effect h hs))

end

theorem init_sound (c : Config) : Sound (init c) where
  sched := Schedule.ok_init
  owner := by simp [init]
  waits := by simp [init]
  active := by simp [init, getTransaction]
  timer := by simp [init, Transaction.new, Transaction.construct]
  made := by simp [init]
  nodup := by
    intro x b hb
    obtain ⟨w, -, rfl⟩ := Option.map_eq_some_iff.mp hb
    exact List.nodup_nil
  free := by
    rintro x p ⟨b, hb, hp⟩
    obtain ⟨w, -, rfl⟩ := Option.map_eq_some_iff.mp hb
    simp at hp

/-- The runs of an application whose steps meet `C`. -/
abbrev Run (C : List Event → App → Event → Prop) (c : Config) (t : List Event) (a : App) : Prop :=
  Runs.Run (fun a e a' => a.step e = some a') C (init c) t a

section
variable {C : List Event → App → Event → Prop} {c : Config} {t : List Event} {a : App}

theorem run_sound (h : Run C c t a) : Sound a :=
  h.invariant (fun _ a => Sound a) (init_sound c) fun _ _ _ _ _ hs _ hst => step_sound hs hst

/-- What holds at the start and is kept by every effect that the condition allows holds after every run. -/
theorem run_invariant (I : List Event → App → Prop) (h0 : I [] (init c))
    (hs : ∀ t a e a', Sound a → I t a → C t a e → Effect a e a' → I (t ++ [e]) a') (h : Run C c t a) : I t a :=
  h.invariant I h0 fun t a e a' hr hi hc hst => hs t a e a' (run_sound hr) hi hc (step_effect (run_sound hr) hst)

end

/-- An application with one command that is answered, 8, and one that is not, 7. -/
def smallConfig : Config where
  maxConcurrentTrans := 5000
  buckets := fun cmd => if cmd = 7 then some false else if cmd = 8 then some true else none
  serverType := 1
  instanceId := 1
  serverZone := 1
  router := { selfServerType := 1, selfInstanceId := 1, selfServerZone := 1, routerInfoVec := [9] }
  now := 0

theorem replay_run {C : List Event → App → Event → Prop} {c : Config} : ∀ {t u : List Event} {a a' : App},
    (∀ e ∈ t, ∀ u a, C u a e) → Run C c u a → a.replay t = some a' → Run C c (u ++ t) a'
  | [], u, a, a', hC, hr, h => by
    cases h
    rwa [List.append_nil]
  | e :: t, u, a, a', hC, hr, h => by
    obtain ⟨b, hb, h⟩ := Option.bind_eq_some_iff.mp h
    have hrun := Runs.Run.snoc hr (hC e List.mem_cons_self _ _) hb
    have := replay_run (fun e' he' => hC e' (List.mem_cons_of_mem e he')) hrun h
    rwa [List.append_assoc, List.singleton_append] at this

/-- The state after the events `t`, which come after `u` and each pass a test where they happen. -/
def replayIf (ok : List Event → App → Event → Bool) (u : List Event) (a : App) : List Event → Option App
  | [] => some a
  | e :: t => if ok u a e then (a.step e).bind fun a' => replayIf ok (u ++ [e]) a' t else none

theorem replayIf_run {C : List Event → App → Event → Prop} {c : Config} {ok : List Event → App → Event → Bool}
    (hok : ∀ u a e, Sound a → ok u a e = true → C u a e) :
    ∀ {t u : List Event} {a a' : App}, Run C c u a → replayIf ok u a t = some a' → Run C c (u ++ t) a'
  | [], u, a, a', hr, h => by
    cases h
    rwa [List.append_nil]
  | e :: t, u, a, a', hr, h => by
    obtain ⟨he, h⟩ := Option.ite_none_right_eq_some.mp h
    obtain ⟨b, hb, h⟩ := Option.bind_eq_some_iff.mp h
    have := replayIf_run hok (.snoc hr (hok u a e (run_sound hr) he) hb) h
    rwa [List.append_assoc, List.singleton_append] at this

theorem replay_concat (a : App) : ∀ (t : List Event) (e : Event),
    a.replay (t ++ [e]) = (a.replay t).bind fun a' => a'.step e
  | [], e => by simp [replay]
  | x :: t, e => by
    simp only [List.cons_append, replay, Option.bind_assoc]
    congr
    funext a'
    exact replay_concat a' t e

theorem run_replay {C : List Event → App → Event → Prop} {c : Config} {t : List Event} {a : App} (h : Run C c t a) :
    (init c).replay t = some a := by
  induction h with
  | nil => rfl
  | snoc hr hc hst ih => simp [replay_concat, ih, hst]

end App

end GlobalServer
