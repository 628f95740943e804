import GlobalServer.Lib.Runs
import GlobalServer.Base.TimePoolSound
import Mathlib.Tactic.IntervalCases

/-!
# The indexes into `_bucket`

The block has a pointer for every second of `_max_interval_day` days, and the
constructor sets up those of the first day. `_CalcBucket` cuts the
milliseconds since then to an `int` and takes the remainder by the whole
block, with the sign of what is divided.
-/

namespace GlobalServer

open Bytes Runs

namespace TimerPool

variable {γ : Type}

/-- `_bucket[big]` lies in the block, and it and `pp[small]` have been set up. -/
def HasBucket (p : TimerPool γ) (i : Int × Int) : Prop :=
  (0 ≤ i.1 ∧ i.1 < bigBucketCnt * p.maxIntervalDay) ∧ i.1 < bigBucketCnt ∧ 0 ≤ i.2 ∧ i.2 < smallBucketCnt

instance (p : TimerPool γ) (i : Int × Int) : Decidable (p.HasBucket i) := inferInstanceAs (Decidable (_ ∧ _))

/-- The indexes that a call computes, or a turn of the loop of `Update`. -/
def indexes (p : TimerPool γ) : Event γ → List (Int × Int)
  | .addTimer now interval _ _ _ =>
    if 0 < interval ∧ interval ≤ bigBucketCnt * p.maxIntervalDay * 1000 then [p.calcBucket now interval] else []
  | .cancelTimer id _ => [((highWord id).tdiv 10, (highWord id).tmod 10)]
  | .update now => [p.calcBucket now 0]
  | .next _ => match p.updating with
    | none => []
    | some u => if u.pc = .bucket ∧ u.sIdx ≤ u.eIdx then [(u.sIdx.tdiv 10, u.sIdx.tmod 10)] else []

/-- `m` milliseconds are in the first day of a turn of the wheel. -/
def FirstDay (days m : Int) : Prop :=
  days ≠ 0 ∧ -100 < m.tmod (1000 * (bigBucketCnt * days)) ∧ m.tmod (1000 * (bigBucketCnt * days)) < 1000 * bigBucketCnt

instance (days m : Int) : Decidable (FirstDay days m) := inferInstanceAs (Decidable (_ ∧ _))

/-- What a call must be like. -/
def InFirstDay (p : TimerPool γ) : Event γ → Prop
  | .addTimer now interval _ _ _ => 0 < interval → interval ≤ bigBucketCnt * p.maxIntervalDay * 1000 →
    FirstDay p.maxIntervalDay (i32 (now - p.begTime + interval))
  | .cancelTimer id _ => p.maxIntervalDay ≠ 0 ∧ 0 ≤ highWord id ∧ highWord id < bigBucketCnt * 10
  | .update now => FirstDay p.maxIntervalDay (i32 (now - p.begTime))
  | .next _ => True

/-! ## One index -/

/-- A block of at least one day is never left through an index that has a bucket, and through each other one. -/
theorem hasBucket_iff_slot {p : TimerPool γ} (hd : 1 ≤ p.maxIntervalDay) (i : Int × Int) :
    p.HasBucket i ↔ p.slot i.1 i.2 ≠ .error .outOfBounds := by
  unfold HasBucket slot bigBucketCnt
  split
  · rename_i hr
    exact ⟨fun _ => nofun, fun _ => ⟨⟨hr.1, by omega⟩, hr.2⟩⟩
  · rename_i hr
    exact ⟨fun h => absurd ⟨h.1.1, h.2⟩ hr, fun h => absurd rfl h⟩

theorem tdiv_tmod_of_nonneg {m : Int} (hm : 0 ≤ m) :
    m.tdiv 1000 = m / 1000 ∧ m.tmod 1000 = m % 1000 ∧ (m % 1000).tdiv 100 = m % 1000 / 100 ∧
      (m % 1000 / 100).tmod 10 = m % 1000 / 100 % 10 ∧ (∀ c, (m / 1000).tmod c = m / 1000 % c) ∧
      ∀ c, m.tmod c = m % c :=
  ⟨Int.tdiv_eq_ediv_of_nonneg hm, Int.tmod_eq_emod_of_nonneg hm, Int.tdiv_eq_ediv_of_nonneg (by omega),
    Int.tmod_eq_emod_of_nonneg (by omega), fun _ => Int.tmod_eq_emod_of_nonneg (by omega),
    fun _ => Int.tmod_eq_emod_of_nonneg hm⟩

theorem hasBucket_calcBucket {p : TimerPool γ} (h0 : 0 ≤ p.maxIntervalDay) (h7 : p.maxIntervalDay ≤ 7)
    (now interval : Int) :
    p.HasBucket (p.calcBucket now interval) ↔ FirstDay p.maxIntervalDay (i32 (now - p.begTime + interval)) := by
  unfold HasBucket FirstDay calcBucket bigBucketCnt smallBucketCnt
  simp only
  generalize i32 (now - p.begTime + interval) = m
  generalize p.maxIntervalDay = days at h0 h7
  rcases Int.le_total 0 m with hm | hm
  · obtain ⟨e1, e2, e3, e4, e5, e6⟩ := tdiv_tmod_of_nonneg hm
    rw [e1, e2, e3, e4, e5, e6]
    interval_cases days <;> omega
  · obtain ⟨k, rfl⟩ : ∃ k, m = -k := ⟨-m, (Int.neg_neg m).symm⟩
    obtain ⟨e1, e2, e3, e4, e5, e6⟩ := tdiv_tmod_of_nonneg (m := k) (by omega)
    simp only [Int.neg_tdiv, Int.neg_tmod, e1, e2, e3, e4, e5, e6]
    interval_cases days <;> omega

theorem hasBucket_position {p : TimerPool γ} (h0 : 0 ≤ p.maxIntervalDay) (i : Int) :
    p.HasBucket (i.tdiv 10, i.tmod 10) ↔ p.maxIntervalDay ≠ 0 ∧ 0 ≤ i ∧ i < bigBucketCnt * 10 := by
  unfold HasBucket bigBucketCnt smallBucketCnt
  simp only
  rcases Int.le_total 0 i with hi | hi
  · rw [Int.tdiv_eq_ediv_of_nonneg hi, Int.tmod_eq_emod_of_nonneg hi]
    omega
  · obtain ⟨k, rfl⟩ : ∃ k, i = -k := ⟨-i, (Int.neg_neg i).symm⟩
    rw [Int.neg_tdiv, Int.neg_tmod, Int.tdiv_eq_ediv_of_nonneg (by omega), Int.tmod_eq_emod_of_nonneg (by omega)]
    omega

/-! ## Runs -/

/-- `Update` stands in the first day, and so it has been left by the last one. -/
structure Positions (days beg : Int) (p : TimerPool γ) : Prop where
  maxIntervalDay : p.maxIntervalDay = days
  begTime : p.begTime = beg
  last : 0 ≤ p.bigBucket * 10 + p.smallBucket
  updating : ∀ u, p.updating = some u → days ≠ 0 ∧ 0 ≤ u.sIdx ∧ 0 ≤ u.eIdx ∧ u.eIdx < bigBucketCnt * 10

theorem positions_congr {days beg : Int} {p p' : TimerPool γ} (h : Positions days beg p) (hs : SameWheel p p')
    (hu : p'.updating = p.updating) : Positions days beg p' where
  maxIntervalDay := hs.maxIntervalDay.trans h.maxIntervalDay
  begTime := hs.begTime.trans h.begTime
  last := by
    rw [hs.bigBucket, hs.smallBucket]
    exact h.last
  updating := by
    rw [hu]
    exact h.updating

theorem sameWheel_addTimer {p p' : TimerPool γ} {now interval : Int} {func : γ} {id : Nat}
    (ha : p.addTimer now interval func = .ok (p', id)) : SameWheel p p' := by
  unfold addTimer at ha
  split at ha
  · cases ha
    exact ⟨rfl, rfl, rfl, rfl⟩
  · split at ha
    · cases ha
      exact ⟨rfl, rfl, rfl, rfl⟩
    · obtain ⟨pp, -, ha⟩ := Except.bind_eq_ok.mp ha
      obtain ⟨l, -, ha⟩ := Except.bind_eq_ok.mp ha
      cases ha
      cases pp <;> exact ⟨rfl, rfl, rfl, rfl⟩

theorem sameWheel_cancelTimer {p p' : TimerPool γ} {id : Nat} {ret : Int} (hr : p.cancelTimer id = .ok (p', ret)) :
    SameWheel p p' ∧ p'.updating = p.updating := by
  unfold cancelTimer at hr
  obtain ⟨pp, -, hr⟩ := Except.bind_eq_ok.mp hr
  cases pp with
  | none =>
    cases hr
    exact ⟨⟨rfl, rfl, rfl, rfl⟩, rfl⟩
  | some pmap =>
    obtain ⟨l, -, hr⟩ := Except.bind_eq_ok.mp hr
    obtain ⟨found, -, hr⟩ := Except.bind_eq_ok.mp hr
    cases found with
    | none =>
      cases hr
      exact ⟨⟨rfl, rfl, rfl, rfl⟩, rfl⟩
    | some e =>
      cases hr
      split <;> exact ⟨⟨rfl, rfl, rfl, rfl⟩, rfl⟩

theorem updateNext_positions {p p' : TimerPool γ} {u : Updating} {shown : Shown γ} (hn : p.updateNext u = .ok (p', shown)) :
    p' = p.endUpdate u ∨ SameWheel p p' ∧ ∃ u', p'.updating = some u' ∧ u'.eIdx = u.eIdx ∧ u.sIdx ≤ u'.sIdx := by
  have goto (q : TimerPool γ) (hq : SameWheel p q) (pc : UpdatePc) : SameWheel p (q.goto u pc) ∧
      ∃ u', (q.goto u pc).updating = some u' ∧ u'.eIdx = u.eIdx ∧ u.sIdx ≤ u'.sIdx :=
    ⟨⟨hq.1, hq.2, hq.3, hq.4⟩, _, rfl, rfl, Int.le_refl _⟩
  have next (q : TimerPool γ) (hq : SameWheel p q) : SameWheel p (q.nextBucket u) ∧
      ∃ u', (q.nextBucket u).updating = some u' ∧ u'.eIdx = u.eIdx ∧ u.sIdx ≤ u'.sIdx :=
    ⟨⟨hq.1, hq.2, hq.3, hq.4⟩, _, rfl, rfl, by show u.sIdx ≤ u.sIdx + 1; omega⟩
  unfold updateNext at hn
  split at hn
  · split at hn
    · cases hn
      exact .inl rfl
    · obtain ⟨pp, -, hn⟩ := Except.bind_eq_ok.mp hn
      cases pp with
      | none =>
        cases hn
        exact .inr (next p ⟨rfl, rfl, rfl, rfl⟩)
      | some pmap =>
        obtain ⟨l, -, hn⟩ := Except.bind_eq_ok.mp hn
        cases hn
        exact .inr (goto (p.setMap pmap _) ⟨rfl, rfl, rfl, rfl⟩ _)
  · obtain ⟨l, -, hn⟩ := Except.bind_eq_ok.mp hn
    cases hn
    refine .inr (next _ ?_)
    split <;> exact ⟨rfl, rfl, rfl, rfl⟩
  · obtain ⟨nd, -, hn⟩ := Except.bind_eq_ok.mp hn
    cases hn
    exact .inr (goto p ⟨rfl, rfl, rfl, rfl⟩ _)
  · rename_i pmap node nodes _
    obtain ⟨nd, -, hn⟩ := Except.bind_eq_ok.mp hn
    cases hn
    exact .inr (goto (p.dealloc node) ⟨rfl, rfl, rfl, rfl⟩ _)

section
variable {n beg : Int}

theorem dayCount_le (n : Int) : 0 ≤ dayCount n ∧ dayCount n ≤ 7 := by
  unfold dayCount
  split <;> omega

theorem positions_new : Positions (dayCount n) beg (new (dayCount n) beg : TimerPool γ) where
  maxIntervalDay := rfl
  begTime := rfl
  last := Int.le_refl 0
  updating := fun u h => by cases h

theorem positions_step {p p' : TimerPool γ} {e : Event γ} (h : Positions (dayCount n) beg p) (hm : p.InFirstDay e)
    (hs : Step p e p') : Positions (dayCount n) beg p' := by
  cases hs with
  | addTimer _ ha => exact positions_congr h (sameWheel_addTimer ha) (updating_addTimer ha)
  | cancelTimer _ hr =>
    obtain ⟨hw, hu⟩ := sameWheel_cancelTimer hr
    exact positions_congr h hw hu
  | @update now hu =>
    have hi : p.HasBucket (p.calcBucket now 0) := by
      rw [hasBucket_calcBucket (h.maxIntervalDay ▸ (dayCount_le n).1) (h.maxIntervalDay ▸ (dayCount_le n).2),
        Int.add_zero]
      exact hm
    refine ⟨h.maxIntervalDay, h.begTime, h.last, fun u hu => ?_⟩
    cases hu
    obtain ⟨⟨h1, -⟩, h2, h3, h4⟩ := hi
    refine ⟨h.maxIntervalDay ▸ hm.1, h.last, ?_, ?_⟩ <;> unfold Updating.eIdx <;> simp only <;>
      unfold smallBucketCnt at h4 <;> omega
  | next hu hn =>
    obtain ⟨hd, h1, h2, h3⟩ := h.updating _ hu
    rcases updateNext_positions hn with rfl | ⟨hw, u', hu', he, hle⟩
    · exact ⟨h.maxIntervalDay, h.begTime, h2, fun u hu => by cases hu⟩
    · refine ⟨hw.maxIntervalDay.trans h.maxIntervalDay, hw.begTime.trans h.begTime, ?_, fun u hu => ?_⟩
      · rw [hw.bigBucket, hw.smallBucket]
        exact h.last
      · rw [hu'] at hu
        cases hu
        rw [he]
        exact ⟨hd, by omega, h2, h3⟩

/-- Whatever the days the constructor is given: after every run whose calls stay in the first day of a turn, the
indexes of a call are good exactly if it does too. -/
theorem indexes_iff {t : List (Event γ)} {p : TimerPool γ}
    (h : Run Step (fun _ p e => p.InFirstDay e) (new (dayCount n) beg) t p) (e : Event γ) :
    (∀ i ∈ p.indexes e, p.HasBucket i) ↔ p.InFirstDay e := by
  have hp : Positions (dayCount n) beg p := by
    refine Runs.Run.invariant (fun _ p => Positions (dayCount n) beg p) positions_new ?_ h
    intro _ _ _ _ _ hp hm hs
    exact positions_step hp hm hs
  have h0 : 0 ≤ p.maxIntervalDay := hp.maxIntervalDay ▸ (dayCount_le n).1
  have h7 : p.maxIntervalDay ≤ 7 := hp.maxIntervalDay ▸ (dayCount_le n).2
  cases e with
  | addTimer now interval func node id =>
    unfold indexes InFirstDay
    simp only
    split
    · rename_i hi
      rw [List.forall_mem_singleton, hasBucket_calcBucket h0 h7]
      exact ⟨fun h _ _ => h, fun h => h hi.1 hi.2⟩
    · rename_i hi
      exact ⟨fun _ h1 h2 => absurd ⟨h1, h2⟩ hi, fun _ i hi => by cases hi⟩
  | cancelTimer id ret =>
    unfold indexes InFirstDay
    simp only
    rw [List.forall_mem_singleton, hasBucket_position h0]
  | update now =>
    unfold indexes InFirstDay
    simp only
    rw [List.forall_mem_singleton, hasBucket_calcBucket h0 h7, Int.add_zero]
  | next shown =>
    refine ⟨fun _ => trivial, fun _ => ?_⟩
    unfold indexes
    simp only
    split
    · exact fun i hi => by cases hi
    · rename_i u hu
      obtain ⟨hd, h1, h2, h3⟩ := hp.updating u hu
      split
      · rename_i hpc
        rw [List.forall_mem_singleton, hasBucket_position h0]
        exact ⟨hp.maxIntervalDay.symm ▸ hd, h1, by omega⟩
      · exact fun i hi => by cases hi

end

theorem indexes_iff_one : ∃ p : TimerPool Unit, Step (new (dayCount 1) 0) (.addTimer 0 100 () 0 4294967297) p ∧
    ∀ i ∈ p.indexes (.update 120), p.HasBucket i := by
  obtain ⟨p, hp⟩ : ∃ p, (new (dayCount 1) 0 : TimerPool Unit).addTimer 0 100 () = .ok (p, 4294967297) := ⟨_, rfl⟩
  have hs : Step (new (dayCount 1) 0) (.addTimer 0 100 () 0 4294967297) p := .addTimer rfl hp
  have hrun : Run Step (fun _ (q : TimerPool Unit) e => q.InFirstDay e) (new (dayCount 1) 0)
      [.addTimer 0 100 () 0 4294967297] p := by
    apply Run.snoc .nil _ hs
    exact fun _ _ => by decide
  refine ⟨p, hs, (indexes_iff hrun _).mpr ?_⟩
  · have hw := sameWheel_addTimer hp
    show FirstDay p.maxIntervalDay (i32 (120 - p.begTime))
    rw [hw.maxIntervalDay, hw.begTime]
    decide

/-- With seven days a timer for the second day goes into a bucket that has not been set up. -/
theorem indexes_second_day : ¬ ∀ i ∈ (new (dayCount 7) 0 : TimerPool Unit).indexes (.addTimer 0 86400000 () 0 0),
    (new (dayCount 7) 0 : TimerPool Unit).HasBucket i := by
  decide

/-- An id that `AddTimer` has returned leads `CancelTimer` back to its bucket. -/
theorem cancelTimer_inFirstDay {p p' : TimerPool γ} (h : Wheel p) {now interval : Int} {func : γ} {id : Nat}
    (ha : p.addTimer now interval func = .ok (p', id)) (h0 : id ≠ 0) (ret : Int) :
    p'.InFirstDay (.cancelTimer id ret) := by
  rcases addTimer_spec h.toHeap ha with ⟨hz, -⟩ | ⟨idx, -, h1, h2, h3, h4, rfl, hadd⟩
  · exact absurd hz h0
  · refine ⟨?_, ?_⟩
    · rw [hadd.maxIntervalDay]
      unfold bigBucketCnt at h4
      omega
    · rw [highWord_timerIdAt h h1 h2]
      exact ⟨h1, h2⟩

end TimerPool

end GlobalServer
