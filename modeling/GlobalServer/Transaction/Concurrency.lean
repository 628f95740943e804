import GlobalServer.Transaction.Ids
import Mathlib.Data.Set.Card

/-!
# How many transactions run

`CreateTransaction` compares the size of the map with the maximum before the
new transaction is in it, and refuses when there are more than the maximum.
So it admits one while exactly that many are active. A coroutine is started
for it in the same call, and what it waits for or when it ends is no matter:
the count goes up at a start and down at an end and nowhere else.
-/

namespace GlobalServer

namespace App

/-- The transactions that are active. -/
def runningSet (a : App) : Set Nat := { p | a.Running p }

noncomputable def runningCnt (a : App) : Nat := a.runningSet.ncard

/-- `GetActiveTransCnt` -/
def getActiveTransCnt (a : App) : Int := Bytes.i32 a.activeTransMap.entries.length

/-- A registered command is refused, so by the maximum. -/
def Refuses (a : App) (cmd : UInt32) : Prop := a.createTransaction cmd = none ∧ ∃ b, a.transBucketMap cmd = some b

/-- No more are active than the maximum, and it refuses only when there are exactly as many. -/
structure WithinMax (a : App) : Prop where
  running : (a.runningCnt : Int) ≤ a.maxConcurrentTrans
  active : (a.activeTransMap.entries.length : Int) ≤ a.maxConcurrentTrans
  refused : ∀ cmd, a.Refuses cmd → (a.runningCnt : Int) = a.maxConcurrentTrans

/-- No frame that would start a transaction comes while the maximum is active. -/
def BelowMax (a : App) (e : Event) : Prop :=
  ∀ fd frame target, e = .dispatch fd frame target → frame.dstTransId = 0 →
    (∃ b, a.transBucketMap frame.cmd = some b) → (a.runningCnt : Int) ≠ a.maxConcurrentTrans

/-! ## Counting -/

section
variable {a a' : App}

theorem runningSet_finite (h : Sound a) : a.runningSet.Finite := by
  apply (Set.finite_lt_nat a.transTop).subset
  intro p hp
  obtain ⟨id, pc, hk⟩ := hp
  exact (h.owner id _ hk).1

theorem runningCnt_le_top (h : Sound a) : a.runningCnt ≤ a.transTop := by
  have hsub : a.runningSet ⊆ ↑(Finset.range a.transTop) := by
    rintro p ⟨id, pc, hk⟩
    exact Finset.mem_coe.mpr (Finset.mem_range.mpr (h.owner id _ hk).1)
  have hle := Set.ncard_le_ncard hsub (Finset.finite_toSet _)
  rwa [Set.ncard_coe_finset, Finset.card_range] at hle

theorem runningCnt_congr (h : ∀ p, a'.Running p ↔ a.Running p) : a'.runningCnt = a.runningCnt := by
  unfold runningCnt
  congr 1
  ext p
  exact h p

theorem runningCnt_start (h : Sound a) {p : Nat} (hp : ¬ a.Running p)
    (hr : ∀ q, a'.Running q ↔ a.Running q ∨ q = p) : a'.runningCnt = a.runningCnt + 1 := by
  have he : a'.runningSet = insert p a.runningSet := by
    ext q
    rw [Set.mem_insert_iff, or_comm]
    exact hr q
  unfold runningCnt
  rw [he]
  exact Set.ncard_insert_of_notMem hp (runningSet_finite h)

theorem runningCnt_exit (h : Sound a) {p : Nat} (hr : ∀ q, a'.Running q ↔ a.Running q ∧ q ≠ p) :
    a'.runningCnt ≤ a.runningCnt := by
  apply Set.ncard_le_ncard _ (runningSet_finite h)
  intro q hq
  exact ((hr q).mp hq).1

theorem active_le_running (h : Sound a) : a.activeTransMap.entries.length ≤ a.runningCnt := by
  have hentry : ∀ e ∈ a.activeTransMap.entries, (a.trans e.2).transId = e.1 ∧ a.Running e.2 := by
    intro e he
    exact h.active e.1 e.2 (AList.mem_lookup_iff.mpr he)
  have hnd : (a.activeTransMap.entries.map Sigma.snd).Nodup := by
    refine List.Nodup.map_on ?_ a.activeTransMap.nodupKeys.nodup
    intro x hx y hy he
    have hk : x.1 = y.1 := by rw [← (hentry x hx).1, he, (hentry y hy).1]
    exact Sigma.ext hk (heq_of_eq he)
  have hlen : (a.activeTransMap.entries.map Sigma.snd).length = a.activeTransMap.entries.length := List.length_map _
  rw [← hlen, ← List.toFinset_card_of_nodup hnd, ← Set.ncard_coe_finset]
  apply Set.ncard_le_ncard _ (runningSet_finite h)
  intro p hp
  rw [List.coe_toFinset] at hp
  obtain ⟨e, he, rfl⟩ := List.mem_map.mp hp
  exact (hentry e he).2

/-! ## The maximum -/

theorem withinMax_iff (h : Sound a) : a.WithinMax ↔ (a.runningCnt : Int) ≤ a.maxConcurrentTrans := by
  have hle := active_le_running h
  refine ⟨fun hw => hw.running, fun hr => ⟨hr, by omega, fun cmd hc => ?_⟩⟩
  obtain ⟨hn, b, hb⟩ := hc
  unfold createTransaction at hn
  split at hn
  · omega
  · rw [hb] at hn
    cases hn

theorem createTransaction_eq_none {cmd : UInt32} : a.createTransaction cmd = none ↔
    a.maxConcurrentTrans < a.activeTransMap.entries.length ∨ a.transBucketMap cmd = none := by
  unfold createTransaction
  split
  · rename_i hlt
    exact ⟨fun _ => .inl hlt, fun _ => rfl⟩
  · rename_i hle
    rw [Option.map_eq_none_iff]
    exact ⟨.inr, fun h => h.resolve_left hle⟩

/-- The comparison is with `GetActiveTransCnt`, as long as the size of the map is an `int`. -/
theorem createTransaction_getActiveTransCnt (h : a.activeTransMap.entries.length < 2 ^ 31) (cmd : UInt32) :
    a.createTransaction cmd =
      if a.maxConcurrentTrans < a.getActiveTransCnt then none else (a.transBucketMap cmd).map (a.bucketCreate cmd) := by
  unfold createTransaction getActiveTransCnt
  rw [Bytes.i32_of_range (by omega) (by omega)]

theorem framed_maxConcurrentTrans {fd : Int} {frame : AppHeadFrame} {m : Nat} {target : Option Nat}
    (hf : Framed a fd frame m target a') : a'.maxConcurrentTrans = a.maxConcurrentTrans := by
  cases hf with
  | @start p id c s hc hd hn hid hs =>
    obtain ⟨map, hins, -⟩ := insertActive_eq ((c.generatorTransId.setTrans p { started a (c.trans p) fd frame m with
      coId := id }).setSchedule s) a.transIdGenerator p
    rw [hins]
    simp only [setSchedule_maxConcurrentTrans, setTrans_maxConcurrentTrans, generatorTransId_maxConcurrentTrans]
    rw [hn.constructed.eq]
  | lost hc hd hn =>
    simp only [setTrans_maxConcurrentTrans, generatorTransId_maxConcurrentTrans]
    rw [hn.constructed.eq]
  | _ => rfl

theorem effect_maxConcurrentTrans {e : Event} (he : Effect a e a') : a'.maxConcurrentTrans = a.maxConcurrentTrans := by
  cases he with
  | dispatch hi hf => exact (framed_maxConcurrentTrans hf).trans rfl
  | nested hc hk hf => exact (framed_maxConcurrentTrans hf).trans rfl
  | suspend hc hk ha hp hs => cases ha <;> rfl
  | _ => rfl

theorem dispatch_starts (h : Sound a) {fd : Int} {frame : AppHeadFrame} {target : Option Nat}
    (he : Effect a (.dispatch fd frame target) a') (hd : frame.dstTransId = 0) :
    (a.createTransaction frame.cmd = none ∧ a'.runningCnt = a.runningCnt) ∨
      ((∃ b, a.transBucketMap frame.cmd = some b) ∧ a'.runningCnt = a.runningCnt + 1) := by
  have hab : SameButLoop a ((a.setLoop (.frame a.msgTop)).takeMsg frame) := ⟨rfl, rfl, rfl, rfl, rfl, rfl⟩
  have hpos : ¬ 0 < frame.dstTransId := by
    rw [hd]
    decide
  cases he with
  | dispatch hi hf =>
    cases hf with
    | none ht =>
      refine .inl ⟨?_, runningCnt_congr fun p => running_same rfl⟩
      rw [frameTarget, if_neg hpos, createTransaction_eq_none] at ht
      exact createTransaction_eq_none.mpr ht
    | reject hp => exact absurd hp hpos
    | resume hc hp => exact absurd hp hpos
    | store hc hp => exact absurd hp hpos
    | lost hc => exact absurd (idle_spec.mp hi).1 hc
    | @start p id c s hc _ hn hid hs =>
      have hborn := hab.born (hn.born (hab.sound h))
      obtain ⟨map, hins, -⟩ := insertActive_eq ((c.generatorTransId.setTrans p { started _ (c.trans p) fd frame a.msgTop with
        coId := id }).setSchedule s) a.transIdGenerator p
      refine .inr ⟨hborn.registered, runningCnt_start h hborn.unused fun q => running_start hid ?_⟩
      rw [show ((a.setLoop (.frame a.msgTop)).takeMsg frame).transIdGenerator = a.transIdGenerator from rfl, hins]
      exact hs.task

theorem effect_runningCnt (h : Sound a) {e : Event} (he : Effect a e a')
    (hle : (a.runningCnt : Int) ≤ a.maxConcurrentTrans) :
    (a'.runningCnt : Int) ≤ a'.maxConcurrentTrans ↔ a.BelowMax e := by
  rw [effect_maxConcurrentTrans he]
  have hactive := active_le_running h
  by_cases hs : ∃ fd frame target, e = .dispatch fd frame target ∧ frame.dstTransId = 0
  · obtain ⟨fd, frame, target, rfl, hd⟩ := hs
    rcases dispatch_starts h he hd with ⟨hn, hc⟩ | ⟨hb, hc⟩
    · refine ⟨fun _ fd' frame' target' hf _ hb => ?_, fun _ => by omega⟩
      cases hf
      obtain ⟨b, hb⟩ := hb
      rcases createTransaction_eq_none.mp hn with hlt | hnone
      · omega
      · rw [hb] at hnone
        cases hnone
    · constructor
      · intro hle' fd' frame' target' hf _ _
        omega
      · intro hm
        have := hm fd frame target rfl hd hb
        omega
  · have hm : a.BelowMax e := fun fd frame target hf hd _ => absurd ⟨fd, frame, target, hf, hd⟩ hs
    refine ⟨fun _ => hm, fun _ => ?_⟩
    cases effect_life h he with
    | keep ok waits trans handler active buckets top generator =>
      rw [runningCnt_congr fun p => running_keep handler]
      exact hle
    | start hf hd => exact absurd ⟨_, _, _, hf, hd⟩ hs
    | lost hf hd hc born schedule =>
      rw [runningCnt_congr fun p => running_same schedule]
      exact hle
    | exit hf cur run hstop =>
      have := runningCnt_exit h fun q => running_exit h run hstop
      omega

end

/-! ## Runs -/

section
variable {c : Config} {t : List Event} {a : App}

theorem runningCnt_init (c : Config) : (init c).runningCnt = 0 := by
  unfold runningCnt
  rw [Set.ncard_eq_zero (runningSet_finite (init_sound c)), Set.eq_empty_iff_forall_notMem]
  intro p hp
  obtain ⟨id, pc, hk⟩ := hp
  simp [init] at hk

/-- In exactly the runs in which no further transaction is asked for while the maximum is active, the maximum is kept
in every state. -/
theorem withinMax_always (h : Run (fun _ _ _ => True) c t a) :
    (∀ t₁ a₁, t₁ <+: t → Run (fun _ _ _ => True) c t₁ a₁ → a₁.WithinMax) ↔
      0 ≤ c.maxConcurrentTrans ∧ Run (fun _ => BelowMax) c t a := by
  have hdet : ∀ (s : App) e (x y : App), s.step e = some x → s.step e = some y → x = y := by
    intro s e x y hx hy
    exact Option.some.inj (hx.symm.trans hy)
  have h0 : (init c).WithinMax ↔ 0 ≤ c.maxConcurrentTrans := by
    rw [withinMax_iff (init_sound c), runningCnt_init]
    rfl
  by_cases hmax : 0 ≤ c.maxConcurrentTrans
  · rw [Runs.Run.always_iff (M := fun _ => BelowMax) hdet WithinMax (h0.mpr hmax) ?_ h]
    · refine ⟨fun hr => ⟨hmax, hr.mono fun _ _ _ hm => hm.2⟩, fun hr => hr.2.mono fun _ _ _ hm => ⟨trivial, hm⟩⟩
    · intro t s e s' hr hw _ hst
      have hs := run_sound hr
      rw [withinMax_iff (step_sound hs hst)]
      exact effect_runningCnt hs (step_effect hs hst) hw.running
  · exact ⟨fun hw => absurd (h0.mp (hw [] _ List.nil_prefix .nil)) hmax, fun hr => absurd hr.1 hmax⟩

end

/-- Whether fewer objects have been made than may be active. -/
def belowTop (a : App) : Event → Bool
  | .dispatch _ _ _ => decide ((a.transTop : Int) < a.maxConcurrentTrans)
  | _ => true

theorem belowTop_ok {a : App} {e : Event} (h : Sound a) (hb : belowTop a e = true) : BelowMax a e := by
  rintro fd frame target rfl - -
  have hlt : (a.transTop : Int) < a.maxConcurrentTrans := of_decide_eq_true hb
  have hle := runningCnt_le_top h
  omega

/-- Two transactions where two may be active, and the second ends. -/
theorem withinMax_two : ∃ a, Run (fun _ _ _ => True) { smallConfig with maxConcurrentTrans := 2 } (twoStarted ++ [secondEnds]) a ∧
    ∀ t₁ a₁, t₁ <+: twoStarted ++ [secondEnds] →
      Run (fun _ _ _ => True) { smallConfig with maxConcurrentTrans := 2 } t₁ a₁ → a₁.WithinMax := by
  have h : (replayIf (fun _ => belowTop) [] (init { smallConfig with maxConcurrentTrans := 2 })
      (twoStarted ++ [secondEnds])).isSome := by decide +kernel
  obtain ⟨a, ha⟩ := Option.isSome_iff_exists.mp h
  have hbelow : Run (fun _ => BelowMax) { smallConfig with maxConcurrentTrans := 2 } ([] ++ (twoStarted ++ [secondEnds])) a :=
    replayIf_run (fun _ _ _ => belowTop_ok) .nil ha
  have hrun := hbelow.mono fun _ _ _ _ => trivial
  exact ⟨a, hrun, (withinMax_always hrun).mpr ⟨by decide, hbelow⟩⟩

/-- With a maximum of 0 a transaction is started all the same. -/
theorem max_zero_exceeded :
    ¬ ∀ t a, Run (fun _ _ _ => True) { smallConfig with maxConcurrentTrans := 0 } t a → a.WithinMax := by
  intro h
  obtain ⟨a, ha⟩ : ∃ a, (init { smallConfig with maxConcurrentTrans := 0 }).step (.dispatch 3 { cmd := 7 } (some 0)) =
      some a := Option.isSome_iff_exists.mp (by decide)
  have hs := init_sound { smallConfig with maxConcurrentTrans := 0 }
  have hw := (h _ a (.snoc .nil trivial ha)).running
  rw [effect_runningCnt hs (step_effect hs ha) (by rw [runningCnt_init]; decide)] at hw
  exact hw 3 { cmd := 7 } (some 0) rfl rfl ⟨_, rfl⟩ (by rw [runningCnt_init]; decide)

end App

end GlobalServer
