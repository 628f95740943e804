import GlobalServer.Transaction.Sound

/-!
# Transaction ids

`GeneratorTransId` counts with 32 bits, from 1 on, and looks at no id in use.
As long as what it gives is not 0 and not the id of a running transaction the
map is what it is meant to be; after 2^32 - 1 transactions it gives 0.
-/

namespace GlobalServer

namespace App

/-- A frame that starts a transaction finds the generator at an id that is not 0 and not in use. -/
def IdFresh (a : App) (e : Event) : Prop :=
  ∀ fd frame p, e = .dispatch fd frame (some p) → frame.dstTransId = 0 →
    a.transIdGenerator ≠ 0 ∧ a.getTransaction a.transIdGenerator = none

/-- The running transactions have ids of their own, and the map leads from each to its transaction. -/
structure IdsOk (a : App) : Prop where
  nonzero : ∀ p, a.Running p → (a.trans p).transId ≠ 0
  distinct : ∀ p q, a.Running p → a.Running q → (a.trans p).transId = (a.trans q).transId → p = q
  map : ∀ i p, a.getTransaction i = some p ↔ a.Running p ∧ (a.trans p).transId = i

/-- Each running transaction is under its id. -/
def Mapped (a : App) : Prop := ∀ p, a.Running p → a.getTransaction (a.trans p).transId = some p

theorem Mapped.map {a : App} (hm : a.Mapped) (h : Sound a) (i : UInt32) (p : Nat) :
    a.getTransaction i = some p ↔ a.Running p ∧ (a.trans p).transId = i := by
  constructor
  · intro hp
    obtain ⟨h1, h2⟩ := h.active i p hp
    exact ⟨h2, h1⟩
  · rintro ⟨hp, rfl⟩
    exact hm p hp

theorem Mapped.inj {a : App} (hm : a.Mapped) {p q : Nat} (hp : a.Running p) (hq : a.Running q)
    (he : (a.trans p).transId = (a.trans q).transId) : p = q := by
  have h1 := hm p hp
  rw [he, hm q hq] at h1
  exact (Option.some.inj h1).symm

section
variable {a a' : App} {e : Event}

theorem mapped_life (h : Sound a) (hm : a.Mapped)
    (hf : ∀ fd frame p, e = .dispatch fd frame (some p) → frame.dstTransId = 0 →
    a.getTransaction a.transIdGenerator = none)
    (hl : Life a e a') : a'.Mapped := by
  intro q hq
  cases hl with
  | keep ok waits trans handler active buckets top generator =>
    rw [getTransaction, active, (trans q).transId]
    exact hm q ((running_keep handler).mp hq)
  | @start p id cmd c fd frame he hd hc born ok cur new task others trans active buckets top generator =>
    rw [active]
    rcases (running_start new task).mp hq with hr | rfl
    · have hne : q ≠ p := fun e => born.unused (e ▸ hr)
      rw [others q hne, born.others q hne]
      exact Or.inl (hm q hr)
    · exact Or.inr ⟨trans.2.1, rfl, by rw [trans.2.1]; exact hf _ _ _ he hd⟩
  | @lost p q' cmd c fd frame he hd hc born schedule others type timer active buckets top generator =>
    have hr := (running_same schedule).mp hq
    have hne : q ≠ p := fun e => born.unused (e ▸ hr)
    rw [getTransaction, active, others q hne, born.others q hne]
    exact hm q hr
  | @exit p id act he cur run hs trans active free nodup buckets top generator =>
    obtain ⟨hr, hne⟩ := (running_exit h run hs).mp hq
    rw [active, trans]
    refine ⟨hm q hr, fun he => hne ?_⟩
    exact hm.inj hr (running_iff.mpr ⟨id, run⟩) he

theorem nonzero_life (h : Sound a) (hz : ∀ p, a.Running p → (a.trans p).transId ≠ 0) (hf : a.IdFresh e)
    (hl : Life a e a') : ∀ p, a'.Running p → (a'.trans p).transId ≠ 0 := by
  intro q hq
  cases hl with
  | keep ok waits trans handler active buckets top generator =>
    rw [(trans q).transId]
    exact hz q ((running_keep handler).mp hq)
  | @start p id cmd c fd frame he hd hc born ok cur new task others trans active buckets top generator =>
    rcases (running_start new task).mp hq with hr | rfl
    · have hne : q ≠ p := fun e => born.unused (e ▸ hr)
      rw [others q hne, born.others q hne]
      exact hz q hr
    · rw [trans.2.1]
      exact (hf _ _ _ he hd).1
  | @lost p q' cmd c fd frame he hd hc born schedule others type timer active buckets top generator =>
    have hr := (running_same schedule).mp hq
    have hne : q ≠ p := fun e => born.unused (e ▸ hr)
    rw [others q hne, born.others q hne]
    exact hz q hr
  | @exit p id act he cur run hs trans active free nodup buckets top generator =>
    rw [trans]
    exact hz q ((running_exit h run hs).mp hq).1

theorem finish_entry (h : Sound a) (hm : a.Mapped) (hl : Life a e a') {p : Nat} (hp : a.Running p)
    (hp' : ¬ a'.Running p)
    (i : UInt32) (q : Nat) : a'.getTransaction i = some q ↔ a.getTransaction i = some q ∧ q ≠ p := by
  cases hl with
  | keep ok waits trans handler active buckets top generator => exact absurd ((running_keep handler).mpr hp) hp'
  | start he hd hc born ok cur new task others trans active buckets top generator =>
    exact absurd ((running_start new task).mpr (Or.inl hp)) hp'
  | lost he hd hc born schedule others type timer active buckets top generator =>
    exact absurd ((running_same schedule).mpr hp) hp'
  | @exit p' id act he cur run hs trans active free nodup buckets top generator =>
    obtain rfl : p = p' := by
      by_contra hne
      exact hp' ((running_exit h run hs).mpr ⟨hp, hne⟩)
    rw [active, hm.map h]
    constructor
    · rintro ⟨⟨hq, rfl⟩, hne⟩
      exact ⟨⟨hq, rfl⟩, fun e => hne (by rw [e])⟩
    · rintro ⟨⟨hq, rfl⟩, hne⟩
      exact ⟨⟨hq, rfl⟩, fun e => hne (hm.inj hq hp e)⟩

end

section
variable {c : Config} {t : List Event} {a : App}

theorem mapped_run {C : List Event → App → Event → Prop} (h : Run C c t a)
    (hC : ∀ t a e, C t a e → ∀ fd frame p, e = .dispatch fd frame (some p) → frame.dstTransId = 0 →
      a.getTransaction a.transIdGenerator = none) : a.Mapped := by
  refine run_invariant (fun _ a => a.Mapped) ?_ ?_ h
  · rintro p ⟨id, pc, hk⟩
    simp [init] at hk
  · intro t a e a' hs hm hc he
    exact mapped_life hs hm (hC t a e hc) (effect_life hs he)

/-- As long as ids are given that are not 0 and not in use, the ids of the running transactions are not 0 and differ,
the map has exactly them, and a transaction that ends takes away its own entry only. -/
theorem ids_ok (h : Run (fun _ => IdFresh) c t a) :
    a.IdsOk ∧ ∀ e a', a.step e = some a' → ∀ p, a.Running p → ¬ a'.Running p →
      ∀ i q, a'.getTransaction i = some q ↔ a.getTransaction i = some q ∧ q ≠ p := by
  have hs := run_sound h
  have hm := mapped_run h fun _ _ _ hc fd frame p he hd => (hc fd frame p he hd).2
  have hz : ∀ p, a.Running p → (a.trans p).transId ≠ 0 := by
    refine run_invariant (fun _ a => ∀ p, a.Running p → (a.trans p).transId ≠ 0) ?_ ?_ h
    · rintro p ⟨id, pc, hk⟩
      simp [init] at hk
    · intro t a e a' hs hz hc he
      exact nonzero_life hs hz hc (effect_life hs he)
  refine ⟨⟨hz, fun p q hp hq he => hm.inj hp hq he, hm.map hs⟩, ?_⟩
  intro e a' hst p hp hp' i q
  exact finish_entry hs hm (effect_life hs (step_effect hs hst)) hp hp' i q

end

/-- Two transactions, of which the first waits for MySQL. -/
def twoStarted : List Event :=
  [.dispatch 3 { cmd := 7 } (some 0), .co 0 (.parseMsg (.frame 0 { cmd := 7 }) true), .co 0 (.mysqlQuery 1 0), .dispatched,
    .dispatch 3 { cmd := 7 } (some 1)]

/-- The second ends. -/
def secondEnds : Event := .co 1 (.parseMsg (.frame 1 { cmd := 7 }) false)

/-- Whether the event makes a transaction in the main loop only, with an id of its own. -/
def startsFresh (a : App) : Event → Bool
  | .dispatch _ _ _ => decide (a.transIdGenerator ≠ 0 ∧ a.getTransaction a.transIdGenerator = none)
  | .co _ (.processFrame _ _ _) => false
  | _ => true

theorem startsFresh_ok {a : App} {e : Event} (h : startsFresh a e = true) : IdFresh a e := by
  rintro fd frame p rfl -
  exact of_decide_eq_true h

theorem ids_ok_two : ∃ a a', Run (fun _ => IdFresh) smallConfig twoStarted a ∧ a.step secondEnds = some a' ∧ a.IdsOk ∧
    a.Running 1 ∧ ¬ a'.Running 1 ∧ ∀ i q, a'.getTransaction i = some q ↔ a.getTransaction i = some q ∧ q ≠ 1 := by
  have h : (replayIf (fun _ => startsFresh) [] (init smallConfig) twoStarted).bind (fun a =>
      (a.step secondEnds).map fun a' => (a.getTransaction 2, a'.getTransaction 2, (a'.trans 1).transId)) =
      some (some 1, none, 2) := by decide +kernel
  obtain ⟨a, ha, h⟩ := Option.bind_eq_some_iff.mp h
  obtain ⟨a', hst, h⟩ := Option.map_eq_some_iff.mp h
  simp only [Prod.mk.injEq] at h
  obtain ⟨h1, h2, h3⟩ := h
  have hrun : Run (fun _ => IdFresh) smallConfig ([] ++ twoStarted) a :=
    replayIf_run (fun _ _ _ _ => startsFresh_ok) .nil ha
  obtain ⟨hids, hends⟩ := ids_ok hrun
  have hrun' := Runs.Run.snoc hrun (startsFresh_ok (e := secondEnds) rfl) hst
  have hp : a.Running 1 := ((hids.map 2 1).mp h1).1
  have hp' : ¬ a'.Running 1 := by
    intro hr
    have := ((ids_ok hrun').1.map 2 1).mpr ⟨hr, h3⟩
    rw [h2] at this
    cases this
  exact ⟨a, a', hrun, hst, hids, hp, hp', hends _ a' hst 1 hp hp'⟩

/-! ## After 2^32 - 1 transactions -/

/-- A state without transactions in which a frame with `cmd` starts one. -/
structure Ready (cmd : UInt32) (a : App) : Prop where
  sound : Sound a
  idle : a.idle = true
  empty : ∀ i, a.getTransaction i = none
  bucket : ∃ b, a.transBucketMap cmd = some b
  room : 0 ≤ a.maxConcurrentTrans

theorem entries_nil {a : App} (h : ∀ i, a.getTransaction i = none) : a.activeTransMap.entries = [] := by
  cases he : a.activeTransMap.entries with
  | nil => rfl
  | cons x l =>
    obtain ⟨i, p⟩ := x
    have := h i
    rw [getTransaction, AList.lookup, he, List.dlookup_cons_eq] at this
    cases this

theorem processFrame_total {a : App} (h : Sound a) (fd : Int) (frame : AppHeadFrame) (m : Nat) :
    ∃ r, a.processFrame fd frame m = some r := by
  unfold processFrame
  cases ht : a.frameTarget frame with
  | none => exact ⟨_, rfl⟩
  | some r =>
    obtain ⟨p, c⟩ := r
    unfold frameTarget at ht
    by_cases hd : 0 < frame.dstTransId
    · rw [if_pos hd] at ht
      obtain ⟨p', hp, he⟩ := Option.map_eq_some_iff.mp ht
      cases he
      by_cases hr : rejects (a.trans p) frame = true
      · exact ⟨(a, none), by simp [process, hr]⟩
      · simp [process_answered h hp fd frame m (by simpa using hr)]
    · rw [if_neg hd] at ht
      simp [process_started (createTransaction_created ht).constructed]

theorem Ready.start {cmd : UInt32} {a : App} (h : Ready cmd a) :
    ∃ p a', a.step (.dispatch 0 { cmd } (some p)) = some a' ∧
      Framed ((a.setLoop (.frame a.msgTop)).takeMsg { cmd }) 0 { cmd } a.msgTop (some p) a' := by
  have hs : Sound ((a.setLoop (.frame a.msgTop)).takeMsg { cmd }) :=
    SameButLoop.sound (by exact ⟨rfl, rfl, rfl, rfl, rfl, rfl⟩) h.sound
  obtain ⟨⟨a', target⟩, hr⟩ := processFrame_total hs 0 { cmd } a.msgTop
  have hf := processFrame_framed hs hr
  have htarget : target ≠ none := by
    rintro rfl
    obtain ⟨b, hb⟩ := h.bucket
    cases hf with
    | none hf =>
      have hroom : ¬ a.maxConcurrentTrans < 0 := by have := h.room; omega
      simp [frameTarget, createTransaction, hb, entries_nil h.empty, hroom] at hf
    | reject hd hp hr => cases hd
  obtain ⟨p, rfl⟩ := Option.ne_none_iff_exists'.mp htarget
  refine ⟨p, a', ?_, hf⟩
  simp [step, h.idle, hr, reached]

/-- What is known of the state in which the transaction has been started. -/
structure JustStarted (cmd : UInt32) (a : App) (p : Nat) (a' : App) : Prop where
  running : ∃ id, a'.schedule.curco = some id ∧ a'.schedule.task id = some ⟨p, .start⟩
  frame : (a'.trans p).curFrame = some a.msgTop
  transId : (a'.trans p).transId = a.transIdGenerator
  entries : ∀ i q, a'.getTransaction i = some q → i = (a'.trans p).transId
  bucket : ∃ b, a'.transBucketMap cmd = some b
  loop : a'.loop = .frame a.msgTop
  live : a'.live = (a.msgTop, { cmd }) :: a.live
  pool : a'.timerPool = a.timerPool
  room : a'.maxConcurrentTrans = a.maxConcurrentTrans
  generator : a'.transIdGenerator = a.transIdGenerator + 1

theorem Ready.justStarted {cmd : UInt32} {a a' : App} {p : Nat} (h : Ready cmd a)
    (hf : Framed ((a.setLoop (.frame a.msgTop)).takeMsg { cmd }) 0 { cmd } a.msgTop (some p) a') :
    JustStarted cmd a p a' := by
  have hab : SameButLoop a ((a.setLoop (.frame a.msgTop)).takeMsg { cmd }) := ⟨rfl, rfl, rfl, rfl, rfl, rfl⟩
  cases hf with
  | resume hc hd hp hr hk hs => cases hd
  | store hc hd hp hr => cases hd
  | lost hc hd hn => exact absurd (idle_spec.mp h.idle).1 hc
  | @start p id c s hc hd hn hid hs =>
    have hcon := hn.constructed.eq
    have hb := ((hab.born (hn.born (hab.sound h.sound))).buckets cmd).mpr h.bucket
    obtain ⟨map, hins, hl⟩ := insertActive_eq ((c.generatorTransId.setTrans p { started _ (c.trans p) 0 { cmd } a.msgTop with
      coId := id }).setSchedule s) a.transIdGenerator p
    rw [show ((a.setLoop (.frame a.msgTop)).takeMsg { cmd }).transIdGenerator = a.transIdGenerator from rfl, hins]
    refine ⟨⟨id, hs.curco, ?_⟩, ?_, ?_, ?_, hb, ?_, ?_, ?_, ?_, ?_⟩
    · simp only [setSchedule_schedule, hs.task, Function.update_self]
    · simp [started]
    · simp [started]
    · intro i q hq
      rcases (hl i q).mp hq with hq | ⟨rfl, -⟩
      · have hq' : c.getTransaction i = some q := hq
        rw [hcon] at hq'
        exact absurd ((h.empty i).symm.trans hq') (by simp)
      · simp [started]
    · simp only [setSchedule_loop, setTrans_loop, generatorTransId_loop]; rw [hcon]; rfl
    · simp only [setSchedule_live, setTrans_live, generatorTransId_live]; rw [hcon]; rfl
    · simp only [setSchedule_timerPool, setTrans_timerPool, generatorTransId_timerPool]; rw [hcon]; rfl
    · simp only [setSchedule_maxConcurrentTrans, setTrans_maxConcurrentTrans,
        generatorTransId_maxConcurrentTrans]; rw [hcon]; rfl
    · simp only [setSchedule_transIdGenerator, setTrans_transIdGenerator,
        generatorTransId_transIdGenerator]; rw [hcon]; rfl

/-- A transaction of the command starts, its request is not well formed, and it ends. -/
theorem Ready.round {cmd : UInt32} {a : App} (h : Ready cmd a) :
    ∃ t a', a.replay t = some a' ∧ Ready cmd a' ∧ a'.transIdGenerator = a.transIdGenerator + 1 := by
  obtain ⟨p, a₁, h₁, hf⟩ := h.start
  have hs₁ := step_sound h.sound h₁
  have hj := h.justStarted hf
  obtain ⟨id, hcur, htask⟩ := hj.running
  obtain ⟨b, hb, hstop, hexit⟩ := exit_eq hs₁ hcur htask
  have hseen : a₁.curFrame p (.frame a.msgTop { cmd }) = some { cmd } := by
    simp [curFrame, hj.frame, shows, hj.live]
  have h₂ : a₁.step (.co p (.parseMsg (.frame a.msgTop { cmd }) false)) = some (a₁.coroutineExit p) := by
    simp [step, running, hcur, htask, act, hseen]
  have hl₂ := effect_life hs₁ (step_effect hs₁ h₂)
  have hs₂ := step_sound hs₁ h₂
  have h₃ : (a₁.coroutineExit p).step .dispatched = some ((a₁.coroutineExit p).setLoop .idle) := by
    simp [step, hexit, hstop.curco, hj.loop]
  refine ⟨[.dispatch 0 { cmd } (some p), .co p (.parseMsg (.frame a.msgTop { cmd }) false), .dispatched],
    (a₁.coroutineExit p).setLoop .idle, by simp [replay, h₁, h₂, h₃], ⟨step_sound hs₂ h₃, ?_, ?_, ?_, ?_⟩, ?_⟩
  · rw [idle_spec, hexit]
    exact ⟨hstop.curco, rfl, by simpa [hj.pool] using (idle_spec.mp h.idle).2.2⟩
  · intro i
    rw [hexit]
    simp only [getTransaction, setLoop_activeTransMap, setSchedule_activeTransMap, setBucket_activeTransMap,
      eraseActive_activeTransMap]
    by_cases hi : i = (a₁.trans p).transId
    · subst hi; simp
    · rw [AList.lookup_erase_ne hi]
      cases hq : a₁.activeTransMap.lookup i with
      | none => rfl
      | some q => exact absurd (hj.entries i q hq) hi
  · obtain ⟨b', hb'⟩ := hj.bucket
    rw [hexit]
    by_cases hx : cmd = (a₁.trans p).cmd
    · subst hx; simp
    · simp [hx, hb']
  · rw [hexit]
    simpa [hj.room] using h.room
  · rw [hexit]
    simpa using hj.generator

theorem init_ready : Ready 7 (init smallConfig) where
  sound := init_sound smallConfig
  idle := rfl
  empty := fun _ => rfl
  bucket := ⟨_, rfl⟩
  room := by decide

theorem rounds : ∀ n : Nat, ∃ t a, Run (fun _ _ _ => True) smallConfig t a ∧ Ready 7 a ∧
    a.transIdGenerator = UInt32.ofNat (n + 1)
  | 0 => ⟨[], _, .nil, init_ready, rfl⟩
  | n + 1 => by
    obtain ⟨t, a, hr, ha, hg⟩ := rounds n
    obtain ⟨u, a', hu, ha', hg'⟩ := ha.round
    refine ⟨t ++ u, a', replay_run (fun _ _ _ _ => trivial) hr hu, ha', ?_⟩
    rw [hg', hg]
    simp

/-- After 2^32 - 1 transactions one starts with the id 0. -/
theorem id_zero : ∃ t a, Run (fun _ _ _ => True) smallConfig t a ∧ ¬ a.IdsOk ∧
    ∃ p, a.Running p ∧ (a.trans p).transId = 0 := by
  obtain ⟨t, a, hr, ha, hg⟩ := rounds (2 ^ 32 - 1)
  obtain ⟨p, a', hs, hf⟩ := ha.start
  have hj := ha.justStarted hf
  obtain ⟨id, -, hk⟩ := hj.running
  have h0 : (a'.trans p).transId = 0 := by
    rw [hj.transId, hg]
    decide
  have hp : a'.Running p := ⟨id, _, hk⟩
  exact ⟨t ++ [.dispatch 0 { cmd := 7 } (some p)], a', .snoc hr trivial hs, fun h => h.nonzero p hp h0, p, hp, h0⟩

end App

end GlobalServer
