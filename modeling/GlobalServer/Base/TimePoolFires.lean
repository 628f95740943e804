import GlobalServer.Base.TimePoolPending
import Mathlib.Tactic.IntervalCases
import Mathlib.Data.List.Induction

/-!
# When timers fire

The wheel's position is the time since the pool was made, in tenths of a
second, modulo the number of buckets. An `Update` that stays in one turn of
the wheel scans the buckets of all timers that came due since the last one,
and one that starts a new turn scans at most the bucket it is in. So each
timer fires once, at the first `Update` at or after its expiry, as long as no
due timer is left behind at the turn of the wheel.
-/

namespace GlobalServer

open Bytes Runs

namespace TimerPool

variable {γ : Type}

/-! ## Positions -/

section
variable (beg days : Int)

/-- The wheel's period in milliseconds. -/
def period : Int := bigBucketCnt * days * 1000

/-- The bucket of a time. -/
def bucketOf (time : Int) : Int := (time - beg) / 100 % (bigBucketCnt * 10 * days)

/-- The turn of the wheel a time is in. -/
def turnOf (time : Int) : Int := (time - beg) / period days

/-- The time fits the `int` it is counted in, and its bucket is one the constructor has set up. -/
structure InRange (time : Int) : Prop where
  nonneg : 0 ≤ time - beg
  fits : time - beg < 2 ^ 31
  day : (time - beg) / 1000 % (bigBucketCnt * days) < bigBucketCnt

end

section
variable {beg days : Int} (hd : 1 ≤ days ∧ days ≤ 7)
include hd

theorem calcBucket_spec {p : TimerPool γ} (hb : p.begTime = beg) (hm : p.maxIntervalDay = days) {now interval : Int}
    (hr : InRange beg days (now + interval)) :
    (p.calcBucket now interval).1 * 10 + (p.calcBucket now interval).2 = bucketOf beg days (now + interval) ∧
      0 ≤ (p.calcBucket now interval).1 ∧ (p.calcBucket now interval).1 < bigBucketCnt ∧
      0 ≤ (p.calcBucket now interval).2 ∧ (p.calcBucket now interval).2 < smallBucketCnt := by
  obtain ⟨h0, h1, h2⟩ := hr
  have hx : now - beg + interval = now + interval - beg := by omega
  unfold calcBucket bucketOf
  simp only [hb, hm, hx]
  generalize now + interval - beg = x at *
  rw [i32_of_range (by omega) h1]
  have e1 : x.tdiv 1000 = x / 1000 := Int.tdiv_eq_ediv_of_nonneg h0
  have e2 : x.tmod 1000 = x % 1000 := Int.tmod_eq_emod_of_nonneg h0
  have e3 : (x % 1000).tdiv 100 = x % 1000 / 100 := Int.tdiv_eq_ediv_of_nonneg (by omega)
  have e4 : (x % 1000 / 100).tmod 10 = x % 1000 / 100 % 10 := Int.tmod_eq_emod_of_nonneg (by omega)
  have e5 : (x / 1000).tmod (bigBucketCnt * days) = x / 1000 % (bigBucketCnt * days) :=
    Int.tmod_eq_emod_of_nonneg (by omega)
  rw [e1, e2, e3, e4, e5]
  obtain ⟨hd1, hd7⟩ := hd
  unfold bigBucketCnt smallBucketCnt at *
  interval_cases days <;> omega

theorem bucketOf_range {time : Int} (hr : InRange beg days time) :
    0 ≤ bucketOf beg days time ∧ bucketOf beg days time < bigBucketCnt * 10 := by
  obtain ⟨h0, h1, h2⟩ := hr
  obtain ⟨hd1, hd7⟩ := hd
  unfold bucketOf bigBucketCnt at *
  interval_cases days <;> omega

theorem bucketOf_mono {a b : Int} (hab : a ≤ b) (ht : turnOf beg days a = turnOf beg days b) :
    bucketOf beg days a ≤ bucketOf beg days b := by
  unfold bucketOf turnOf period bigBucketCnt at *
  obtain ⟨hd1, hd7⟩ := hd
  interval_cases days <;> omega

theorem turnOf_between {a b c : Int} (hab : a ≤ b) (hbc : b ≤ c) (ht : turnOf beg days a = turnOf beg days c) :
    turnOf beg days a = turnOf beg days b ∧ turnOf beg days b = turnOf beg days c := by
  unfold turnOf period bigBucketCnt at *
  obtain ⟨hd1, hd7⟩ := hd
  interval_cases days <;> omega

end

/-! ## The life of one timer -/

/-- What a timer may be asked to do next. -/
inductive Life where
  | unborn
  | waiting (id : Nat) (expire : Int)
  /-- an `Update` has begun at or after the expiry -/
  | due (id : Nat)
  | fired
  | cancelled
  /-- called too early, again, or after a cancel, or left behind by the `Update` it was due at -/
  | wrong
  deriving DecidableEq

/-- The life of the timer whose node is `n`, after one more event. -/
def Life.next (n : Nat) : Life → Event γ → Life
  | .unborn, .addTimer now interval _ node id => if node = n ∧ id ≠ 0 then .waiting id (now + interval) else .unborn
  | .waiting id expire, .update now => if expire ≤ now then .due id else .waiting id expire
  | .waiting id expire, .cancelTimer i ret => if i = id ∧ ret = 0 then .cancelled else .waiting id expire
  | .due id, .cancelTimer i ret => if i = id ∧ ret = 0 then .cancelled else .due id
  | .due id, .next (.callback m _) => if m = n then .fired else .due id
  | .due _, .next .done => .wrong
  | l, .next (.callback m _) => if m = n then .wrong else l
  | l, _ => l

def lifeOf (n : Nat) (t : List (Event γ)) : Life := t.foldl (Life.next n) .unborn

theorem lifeOf_snoc (n : Nat) (t : List (Event γ)) (e : Event γ) : lifeOf n (t ++ [e]) = (lifeOf n t).next n e := by
  unfold lifeOf; rw [List.foldl_append]; rfl

/-- The reading of the last `Update`, or of the constructor. -/
def lastUpdate (beg : Int) (t : List (Event γ)) : Int :=
  t.foldl (fun last e => match e with | .update now => now | _ => last) beg

theorem lastUpdate_snoc (beg : Int) (t : List (Event γ)) (e : Event γ) :
    lastUpdate beg (t ++ [e]) = match e with | .update now => now | _ => lastUpdate beg t := by
  unfold lastUpdate; rw [List.foldl_append]; rfl

/-- Readings do not go back, and `Update`s come less than a period apart. -/
def ClockOk (beg days : Int) (t : List (Event γ)) : Event γ → Prop
  | .addTimer now _ _ _ _ => lastUpdate beg t ≤ now
  | .update now => lastUpdate beg t ≤ now ∧ now - lastUpdate beg t < period days
  | _ => True

/-- The `Update` scans the bucket of every timer that is due at it: it stays in the turn of the last
one, or no due timer lies outside the buckets it goes through. -/
def NoneLeft (beg days : Int) (p : TimerPool γ) (last now : Int) : Prop :=
  turnOf beg days last = turnOf beg days now ∨
    ∀ i e, e ∈ p.entries i → e.1 ≤ now → p.bigBucket * 10 + p.smallBucket ≤ i ∧ i ≤ bucketOf beg days now

/-- What the calls of a run have to meet for its timers to fire. -/
structure FiresOk (beg days : Int) (t : List (Event γ)) (p : TimerPool γ) (e : Event γ) : Prop where
  clock : ClockOk beg days t e
  calls : p.CallsOk e
  add : ∀ now interval func node id, e = .addTimer now interval func node id → 0 < interval → interval ≤ period days →
    InRange beg days (now + interval)
  update : ∀ now, e = .update now → InRange beg days now ∧ NoneLeft beg days p (lastUpdate beg t) now

/-! ## The wheel's own clock -/

structure Clock (beg days : Int) (t : List (Event γ)) (p : TimerPool γ) : Prop where
  dayCnt : p.maxIntervalDay = days
  begTime : p.begTime = beg
  idle : p.updating = none → p.bigBucket * 10 + p.smallBucket = bucketOf beg days (lastUpdate beg t)
  busy : ∀ u, p.updating = some u →
    u.now = lastUpdate beg t ∧ u.eIdx = bucketOf beg days u.now ∧ InRange beg days u.now ∧ 0 ≤ u.sIdx ∧
      (u.pc ≠ .bucket → u.sIdx ≤ u.eIdx)
  place : ∀ i e, e ∈ p.entries i → i = bucketOf beg days e.1

theorem sameWheel_tick {p p' : TimerPool γ} {u : Updating} {shown : Shown γ} (ht : Tick p u p' shown) :
    p'.maxIntervalDay = p.maxIntervalDay ∧ p'.begTime = p.begTime := by
  cases ht with
  | close hpc => split <;> exact ⟨rfl, rfl⟩
  | _ => exact ⟨rfl, rfl⟩

theorem updating_tick {p p' : TimerPool γ} {u : Updating} {shown : Shown γ} (ht : Tick p u p' shown) :
    (shown = .done ∧ p' = p.endUpdate u) ∨
      (shown ≠ .done ∧ ∃ u', p'.updating = some u' ∧ u'.now = u.now ∧ u'.eIdx = u.eIdx ∧ u.sIdx ≤ u'.sIdx) := by
  cases ht with
  | done => exact Or.inl ⟨rfl, rfl⟩
  | pass => exact Or.inr ⟨nofun, _, rfl, rfl, rfl, by show u.sIdx ≤ u.sIdx + 1; omega⟩
  | take => exact Or.inr ⟨nofun, _, rfl, rfl, rfl, Int.le_refl _⟩
  | close => exact Or.inr ⟨nofun, _, rfl, rfl, rfl, by show u.sIdx ≤ u.sIdx + 1; omega⟩
  | call => exact Or.inr ⟨nofun, _, rfl, rfl, rfl, Int.le_refl _⟩
  | ret => exact Or.inr ⟨nofun, _, rfl, rfl, rfl, Int.le_refl _⟩

/-- How much an `Update` has still to do: buckets, the bucket it is at, nodes taken out of it. -/
def rank (u : Updating) : Nat × Nat × Nat :=
  ((u.eIdx + 1 - u.sIdx).toNat, match u.pc with
    | .bucket => (1, 0)
    | .nodelist _ nodes => (0, 2 * nodes.length)
    | .callback _ _ nodes => (0, 2 * nodes.length + 1))

/-- `Update` comes to its end. -/
theorem rank_tick {p p' : TimerPool γ} {u : Updating} {shown : Shown γ} (ht : Tick p u p' shown) (hs : shown ≠ .done)
    (hle : u.pc ≠ .bucket → u.sIdx ≤ u.eIdx) :
    ∃ u', p'.updating = some u' ∧ Prod.Lex (· < ·) (Prod.Lex (· < ·) (· < ·)) (rank u') (rank u) ∧
      (u'.pc ≠ .bucket → u'.sIdx ≤ u'.eIdx) := by
  have next : ∀ pc, u.sIdx ≤ u.eIdx → Prod.Lex (· < ·) (Prod.Lex (· < ·) (· < ·))
      (rank { u with sIdx := u.sIdx + 1, pc := pc }) (rank u) := by
    intro pc hle
    refine Prod.Lex.left _ _ ?_
    show (u.eIdx + 1 - (u.sIdx + 1)).toNat < (u.eIdx + 1 - u.sIdx).toNat
    omega
  cases ht with
  | done => exact absurd rfl hs
  | pass hpc hle' hb => exact ⟨_, rfl, next _ hle', fun h => absurd rfl h⟩
  | take hpc hle' hb =>
    refine ⟨_, rfl, ?_, fun _ => hle'⟩
    unfold rank
    rw [hpc]
    exact Prod.Lex.right _ (Prod.Lex.left _ _ (by decide))
  | close hpc =>
    have := hle (by rw [hpc]; exact nofun)
    exact ⟨_, rfl, next _ this, fun h => absurd rfl h⟩
  | call hpc hnd =>
    refine ⟨_, rfl, ?_, fun _ => hle (by rw [hpc]; exact nofun)⟩
    unfold rank
    rw [hpc]
    refine Prod.Lex.right _ (Prod.Lex.right _ ?_)
    rw [List.length_cons]; omega
  | ret hpc =>
    refine ⟨_, rfl, ?_, fun _ => hle (by rw [hpc]; exact nofun)⟩
    unfold rank
    rw [hpc]
    exact Prod.Lex.right _ (Prod.Lex.right _ (by omega))

theorem entries_tick {p p' : TimerPool γ} {u : Updating} {shown : Shown γ} (h : Heap p) (hu : p.updating = some u)
    (ht : Tick p u p' shown) {i : Int} {e : Int × Nat} :
    (e ∈ p'.entries i → e ∈ p.entries i) ∧ (e ∈ p.entries i → u.now < e.1 ∨ i ≠ u.sIdx → e ∈ p'.entries i) := by
  have same : p'.entries = p.entries →
      (e ∈ p'.entries i → e ∈ p.entries i) ∧ (e ∈ p.entries i → u.now < e.1 ∨ i ≠ u.sIdx → e ∈ p'.entries i) := by
    intro he
    rw [he]
    exact ⟨fun h => h, fun h _ => h⟩
  cases ht with
  | take hpc hle hb =>
    rw [entries_take h hb]
    split
    · rename_i hi
      subst hi
      rw [mem_kept]
      exact ⟨fun he => he.1, fun he hlt => ⟨he, hlt.resolve_right fun hne => hne rfl⟩⟩
    · exact ⟨fun h => h, fun h _ => h⟩
  | close hpc => exact same (entries_close h (held_nodelist h hu hpc))
  | _ => exact same (entries_congr rfl rfl)

section
variable {beg days : Int} {t : List (Event γ)} {p p' : TimerPool γ} (hd : 1 ≤ days ∧ days ≤ 7) (hk : Known t p)
  (hc : Clock beg days t p)
include hd hk hc

theorem clock_step {e : Event γ} (hf : FiresOk beg days t p e) (hs : Step p e p') : Clock beg days (t ++ [e]) p' := by
  cases hs with
  | @addTimer _ now interval func id hcan ha =>
    have hlast := lastUpdate_snoc beg t (.addTimer now interval func p.nodeTop id)
    rcases addTimer_spec hk.toHeap ha with ⟨rfl, rfl⟩ | ⟨idx, hidx, -, -, hi0, hi1, -, hadd⟩
    · exact ⟨hc.dayCnt, hc.begTime, by rw [hlast]; exact hc.idle, by rw [hlast]; exact hc.busy, hc.place⟩
    · refine ⟨hadd.maxIntervalDay.trans hc.dayCnt, hadd.begTime.trans hc.begTime, ?_, ?_, ?_⟩
      · rw [hlast, hadd.updating, hadd.bigBucket, hadd.smallBucket]; exact hc.idle
      · rw [hlast, hadd.updating]; exact hc.busy
      · intro i e he
        rcases (hadd.mem (hf.calls hi0 hi1).expire).mp he with he | ⟨rfl, rfl⟩
        · exact hc.place i e he
        · rw [hc.dayCnt] at hi1
          rw [hidx]
          exact (calcBucket_spec hd hc.begTime hc.dayCnt (hf.add _ _ _ _ _ rfl hi0 hi1)).1
  | @cancelTimer _ id ret hcan hr =>
    have hlast := lastUpdate_snoc beg t (.cancelTimer id ret)
    rcases cancelTimer_spec hk.toHeap hf.calls hr with ⟨rfl, rfl, -⟩ | ⟨rfl, e, he, hid, hrem⟩
    · exact ⟨hc.dayCnt, hc.begTime, by rw [hlast]; exact hc.idle, by rw [hlast]; exact hc.busy, hc.place⟩
    · refine ⟨hrem.maxIntervalDay.trans hc.dayCnt, hrem.begTime.trans hc.begTime, ?_, ?_, ?_⟩
      · rw [hlast, hrem.updating, hrem.bigBucket, hrem.smallBucket]; exact hc.idle
      · rw [hlast, hrem.updating]; exact hc.busy
      · intro i x hx
        exact hc.place i x ((hrem.mem hk.toWheel he).mp hx).1
  | @update now hu =>
    have hlast := lastUpdate_snoc beg t (.update now)
    have hr : InRange beg days (now + 0) := by rw [Int.add_zero]; exact (hf.update now rfl).1
    have hcb := calcBucket_spec hd hc.begTime hc.dayCnt hr
    rw [Int.add_zero] at hcb hr
    refine ⟨hc.dayCnt, hc.begTime, ?_, ?_, ?_⟩
    · intro h; cases h
    · rintro u hu'
      cases hu'
      refine ⟨hlast.symm, hcb.1, hr, ?_, fun hpc => absurd rfl hpc⟩
      have h0 := hc.idle hu
      show 0 ≤ p.bigBucket * 10 + p.smallBucket
      rw [h0]
      obtain ⟨hd1, -⟩ := hd
      exact Int.emod_nonneg _ (by unfold bigBucketCnt; omega)
    · intro i e he
      have he' : (p.beginUpdate now).entries = p.entries := entries_congr rfl rfl
      rw [he'] at he
      exact hc.place i e he
  | @next _ u shown hu hn =>
    have hlast : lastUpdate beg (t ++ [.next shown]) = lastUpdate beg t := lastUpdate_snoc beg t (.next shown)
    have ht := updateNext_tick hk.toHeap hu hn
    obtain ⟨hm, hb⟩ := sameWheel_tick ht
    obtain ⟨h1, h2, h3, h4, h5⟩ := hc.busy u hu
    refine ⟨hm.trans hc.dayCnt, hb.trans hc.begTime, ?_, ?_,
      fun i e he => hc.place i e ((entries_tick hk.toHeap hu ht).1 he)⟩
    · intro hnone
      rcases updating_tick ht with ⟨-, rfl⟩ | ⟨-, u', hu', -⟩
      · show u.eIdx = _
        rw [h2, h1, hlast]
      · rw [hu'] at hnone; cases hnone
    · intro u' hu'
      rcases updating_tick ht with ⟨-, rfl⟩ | ⟨hs, u₂, hu₂, g1, g2, g3⟩
      · cases hu'
      · rw [hu₂] at hu'
        cases hu'
        obtain ⟨u₃, hu₃, -, g4⟩ := rank_tick ht hs h5
        rw [hu₂] at hu₃
        cases hu₃
        exact ⟨by rw [g1, h1, hlast], by rw [g2, g1, h2], by rw [g1]; exact h3, by omega, g4⟩

end

/-! ## One timer through a run -/

/-- The first bucket `Update` has still to look at. -/
def nextIdx (u : Updating) : Int :=
  match u.pc with
  | .bucket => u.sIdx
  | _ => u.sIdx + 1

theorem nextIdx_bucket {u : Updating} (hpc : u.pc = .bucket) : nextIdx u = u.sIdx := by
  simp only [nextIdx, hpc]

theorem nextIdx_of_ne {u : Updating} (hpc : u.pc ≠ .bucket) : nextIdx u = u.sIdx + 1 := by
  unfold nextIdx
  split
  · rename_i h
    exact absurd h hpc
  · rfl

/-- Where the node `n` is, as its life says. -/
def Tracks (beg days last : Int) (p : TimerPool γ) (n : Nat) : Life → Prop
  | .unborn => p.nodeTop ≤ n
  | .waiting id expire =>
    (expire, n) ∈ p.entries (bucketOf beg days expire) ∧ (∃ nd, p.nodes n = some nd ∧ nd.timerId = id) ∧ last < expire
  | .due id => (∃ nd, p.nodes n = some nd ∧ nd.timerId = id) ∧ ∃ u, p.updating = some u ∧
    (n ∈ p.queued ∨ ∃ i expire, (expire, n) ∈ p.entries i ∧ expire ≤ u.now ∧ nextIdx u ≤ i ∧ i ≤ u.eIdx)
  | .fired => n < p.nodeTop ∧ ¬ p.Pending n
  | .cancelled => n < p.nodeTop ∧ ¬ p.Pending n
  | .wrong => False

theorem Tracks.pending {beg days last : Int} {p : TimerPool γ} {n : Nat} :
    (∀ {id expire}, Tracks beg days last p n (.waiting id expire) → p.Pending n) ∧
      ∀ {id}, Tracks beg days last p n (.due id) → p.Pending n := by
  refine ⟨fun h => Or.inl ⟨_, _, h.1⟩, fun h => ?_⟩
  obtain ⟨-, u, -, hq | ⟨i, expire, he, -⟩⟩ := h
  · exact Or.inr hq
  · exact Or.inl ⟨i, expire, he⟩

theorem next_over {n : Nat} {l : Life} (hl : l = .fired ∨ l = .cancelled) {e : Event γ}
    (he : ∀ cb, e ≠ .next (.callback n cb)) : l.next n e = l := by
  have hm : ∀ m cb, e = .next (.callback m cb) → m ≠ n := fun m cb h hmn => he cb (hmn ▸ h)
  rcases hl with rfl | rfl <;> cases e with
  | next shown =>
    cases shown with
    | callback m cb => simp [Life.next, hm m cb rfl]
    | _ => rfl
  | _ => rfl

section
variable {beg days last : Int} {t : List (Event γ)} {p p' : TimerPool γ} {n i : Nat} {u : Updating} {shown : Shown γ}
  (hk : Known t p) (hu : p.updating = some u) (htick : Tick p u p' shown)
include hk hu htick

theorem node_tick (hnode : ∃ nd, p.nodes n = some nd ∧ nd.timerId = i) (hp : p'.Pending n) :
    ∃ nd, p'.nodes n = some nd ∧ nd.timerId = i := by
  obtain ⟨nd, hnd, hi⟩ := hnode
  obtain ⟨nd', hnd'⟩ := (wheel_tick hk.toWheel hu htick).node hp
  have hold := nodes_tick htick hnd'
  rw [hnd] at hold
  cases hold
  exact ⟨nd, hnd', hi⟩

theorem tracks_next_unborn (ht : Tracks beg days last p n .unborn) :
    Tracks beg days last p' n (Life.unborn.next n (.next shown : Event γ)) := by
  have htop : p.nodeTop ≤ n := ht
  have hl : Life.unborn.next n (.next shown : Event γ) = .unborn := by
    cases shown with
    | callback m cb =>
      by_cases hm : m = n
      · subst hm
        obtain ⟨nd, hnd⟩ := hk.node (pending_of_callback hu htick)
        have := hk.top m nd hnd
        omega
      · simp [Life.next, hm]
    | _ => rfl
  rw [hl]
  show p'.nodeTop ≤ n
  rw [nodeTop_tick htick]
  exact htop

theorem tracks_next_waiting (hnow : u.now = last) {expire : Int}
    (ht : Tracks beg days last p n (.waiting i expire)) :
    Tracks beg days last p' n ((Life.waiting i expire).next n (.next shown : Event γ)) := by
  obtain ⟨h1, h2, h3⟩ := ht
  have hne : ∀ cb, shown ≠ .callback n cb := by
    intro cb hs
    subst hs
    exact hk.apart n (detached_of_callback hu htick) ⟨_, _, h1⟩
  have hl : (Life.waiting i expire).next n (.next shown : Event γ) = .waiting i expire := by
    cases shown with
    | callback m cb =>
      have hm : m ≠ n := fun e => hne cb (by rw [e])
      simp [Life.next, hm]
    | _ => rfl
  rw [hl]
  have hp' : p'.Pending n := (pending_tick hk.toWheel hu htick).mpr ⟨Or.inl ⟨_, _, h1⟩, hne⟩
  exact ⟨(entries_tick hk.toHeap hu htick).2 h1 (Or.inl (by rw [hnow]; exact h3)), node_tick hk hu htick h2 hp', h3⟩

/-- A node that is due is taken out when its bucket comes up, and then called. -/
theorem tracks_next_due (ht : Tracks beg days last p n (.due i)) :
    Tracks beg days last p' n ((Life.due i).next n (.next shown : Event γ)) := by
  have hp := Tracks.pending.2 ht
  have hpt := pending_tick hk.toWheel hu htick (n := n)
  obtain ⟨h2, u', hu', hq⟩ := ht
  rw [hu] at hu'
  cases hu'
  cases htick with
  | done hpc hlt =>
    exfalso
    rw [queued_bucket hu hpc, nextIdx_bucket hpc] at hq
    rcases hq with hq | ⟨j, expire, -, -, hj1, hj2⟩
    · cases hq
    · omega
  | pass hpc hle hb =>
    rw [queued_bucket hu hpc, nextIdx_bucket hpc] at hq
    refine ⟨h2, _, rfl, ?_⟩
    rcases hq with hq | ⟨j, expire, he, hle', hj1, hj2⟩
    · cases hq
    · have hj : j ≠ u.sIdx := by
        intro hj
        subst hj
        rw [entries_none hb] at he
        cases he
      refine Or.inr ⟨j, expire, he, hle', ?_, hj2⟩
      show u.sIdx + 1 ≤ j
      omega
  | @take pmap hpc hle hb =>
    rw [queued_bucket hu hpc, nextIdx_bucket hpc] at hq
    refine ⟨h2, _, rfl, ?_⟩
    rcases hq with hq | ⟨j, expire, he, hle', hj1, hj2⟩
    · cases hq
    · by_cases hj : j = u.sIdx
      · subst hj
        exact Or.inl (mem_due.mpr ⟨expire, he, hle'⟩)
      · refine Or.inr ⟨j, expire, by rw [entries_take hk.toHeap hb, if_neg hj]; exact he, hle', ?_, hj2⟩
        show u.sIdx + 1 ≤ j
        omega
  | @close pmap hpc =>
    rw [queued_nodelist hu hpc, nextIdx_of_ne (by simp [hpc])] at hq
    have hent := entries_close hk.toHeap (held_nodelist hk.toHeap hu hpc)
    refine ⟨node_tick hk hu (.close hpc) h2 (hpt.mpr ⟨hp, nofun⟩), _, rfl, ?_⟩
    rcases hq with hq | ⟨j, expire, he, hrest⟩
    · cases hq
    · exact Or.inr ⟨j, expire, by rw [hent]; exact he, hrest⟩
  | @call pmap node nodes nd hpc hnd =>
    rw [queued_nodelist hu hpc, nextIdx_of_ne (by simp [hpc])] at hq
    by_cases hm : node = n
    · subst hm
      simp only [Life.next, if_true]
      obtain ⟨nd', hnd'⟩ := hk.node hp
      exact ⟨hk.top node nd' hnd', fun hp' => (hpt.mp hp').2 nd.cb rfl⟩
    · simp only [Life.next, hm, if_false]
      refine ⟨h2, _, rfl, hq.imp_left fun hq => ?_⟩
      exact (List.mem_cons.mp hq).resolve_left fun e => hm e.symm
  | @ret pmap node nodes hpc =>
    rw [queued_callback hu hpc, nextIdx_of_ne (by simp [hpc])] at hq
    exact ⟨node_tick hk hu (.ret hpc) h2 (hpt.mpr ⟨hp, nofun⟩), _, rfl, hq⟩

end

section
variable {beg days : Int} {t : List (Event γ)} {p p' : TimerPool γ} (hd : 1 ≤ days ∧ days ≤ 7) (hk : Known t p)
  (hc : Clock beg days t p) {n : Nat} {l : Life} (ht : Tracks beg days (lastUpdate beg t) p n l)
include hk ht

theorem tracks_over {e : Event γ} (hcall : p.CallsOk e) (hs : Step p e p') (hl : l = .fired ∨ l = .cancelled) :
    Tracks beg days (lastUpdate beg (t ++ [e])) p' n (l.next n e) := by
  have hgone : n < p.nodeTop ∧ ¬ p.Pending n := by rcases hl with rfl | rfl <;> exact ht
  obtain ⟨g1, g2, g3⟩ := gone_step hk hcall hs hgone.1 hgone.2
  rw [next_over hl g3]
  rcases hl with rfl | rfl <;> exact ⟨g1, g2⟩

include hd hc

theorem tracks_addTimer {now interval : Int} {func : γ} {id : Nat}
    (hf : FiresOk beg days t p (.addTimer now interval func p.nodeTop id)) (hcan : p.canCall)
    (ha : p.addTimer now interval func = .ok (p', id)) :
    Tracks beg days (lastUpdate beg (t ++ [.addTimer now interval func p.nodeTop id])) p' n
      (l.next n (.addTimer now interval func p.nodeTop id)) := by
  have hlast := lastUpdate_snoc beg t (.addTimer now interval func p.nodeTop id)
  have hs : Step p (.addTimer now interval func p.nodeTop id) p' := .addTimer hcan ha
  rw [hlast]
  rcases addTimer_spec hk.toHeap ha with ⟨rfl, rfl⟩ | ⟨idx, hidx, -, -, hi0, hi1, hid, hadd⟩
  · have he : l.next n (.addTimer now interval func p'.nodeTop 0 : Event γ) = l := by
      cases l <;> simp [Life.next]
    rw [he]; exact ht
  · have hexp := (hf.calls hi0 hi1).expire
    have hne : p.Pending n → n ≠ p.nodeTop := by
      rintro hp rfl
      obtain ⟨nd, hnd⟩ := hk.node hp
      exact Nat.lt_irrefl _ (hk.top _ nd hnd)
    have hnode : p.Pending n → p'.nodes n = p.nodes n := fun hp => by
      rw [hadd.nodes, Function.update_of_ne (hne hp)]
    cases l with
    | unborn =>
      have hid0 : id ≠ 0 := by
        have := hk.nextTimerId_lt
        rw [hid]; unfold timerIdAt; omega
      by_cases hn : p.nodeTop = n
      · subst hn
        simp only [Life.next, hid0, ne_eq, not_false_eq_true, and_self, if_true]
        have hidx' : idx = bucketOf beg days (now + interval) := by
          rw [hc.dayCnt] at hi1
          rw [hidx]
          exact (calcBucket_spec hd hc.begTime hc.dayCnt (hf.add _ _ _ _ _ rfl hi0 hi1)).1
        refine ⟨(hadd.mem hexp).mpr (Or.inr ⟨hidx'.symm, rfl⟩),
          ⟨_, by rw [hadd.nodes]; exact Function.update_self .., ?_⟩, ?_⟩
        · exact hid.symm
        · have hclock : lastUpdate beg t ≤ now := hf.clock
          omega
      · have htop : p.nodeTop ≤ n := ht
        simp only [Life.next, hn, false_and, if_false]
        show p'.nodeTop ≤ n
        rw [hadd.nodeTop]; omega
    | waiting i expire =>
      obtain ⟨h1, h2, h3⟩ := ht
      refine ⟨(hadd.mem hexp).mpr (Or.inl h1), ?_, h3⟩
      rwa [hnode (Or.inl ⟨_, _, h1⟩)]
    | due i =>
      have hp := Tracks.pending.2 ht
      obtain ⟨h1, u, hu, hq⟩ := ht
      refine ⟨by rwa [hnode hp], u, hadd.updating.trans hu, ?_⟩
      rcases hq with hq | ⟨j, expire, he, hrest⟩
      · exact Or.inl (by rw [queued_congr hadd.updating]; exact hq)
      · exact Or.inr ⟨j, expire, (hadd.mem hexp).mpr (Or.inl he), hrest⟩
    | fired => exact hlast ▸ tracks_over hk ht hf.calls hs (Or.inl rfl)
    | cancelled => exact hlast ▸ tracks_over hk ht hf.calls hs (Or.inr rfl)
    | wrong => exact ht.elim

omit hd hc in
theorem tracks_cancelTimer {id : Nat} {ret : Int} (hcall : p.KeepsHeldMap id) (hcan : p.canCall)
    (hr : p.cancelTimer id = .ok (p', ret)) :
    Tracks beg days (lastUpdate beg (t ++ [.cancelTimer id ret])) p' n (l.next n (.cancelTimer id ret : Event γ)) := by
  have hlast := lastUpdate_snoc beg t (.cancelTimer id ret)
  have hs : Step p (.cancelTimer id ret) p' := .cancelTimer hcan hr
  rw [hlast]
  rcases cancelTimer_spec hk.toHeap hcall hr with ⟨rfl, rfl, -⟩ | ⟨rfl, e, he, hid, hrem⟩
  · have hl : l.next n (.cancelTimer id (-1) : Event γ) = l := by
      cases l <;> simp [Life.next]
    rw [hl]; exact ht
  · -- the ids of pending timers differ, so the id tells whether it is this timer
    have hsame : ∀ i, p.Pending n → (∃ nd, p.nodes n = some nd ∧ nd.timerId = i) → (id = i ↔ n = e.2) := by
      intro i hp hnd
      constructor
      · rintro rfl
        exact hk.ids n e.2 id ((hk.pend n id).mpr ⟨hp, hnd⟩) (hk.removed he hid).1
      · rintro rfl
        obtain ⟨nd, h1, h2⟩ := hnd
        obtain ⟨nd', h1', h2'⟩ := hid
        rw [h1] at h1'
        cases h1'
        exact h2'.symm.trans h2
    have hgone : n = e.2 → p.Pending n → n < p'.nodeTop ∧ ¬ p'.Pending n := by
      intro hn hp
      obtain ⟨nd, hnd⟩ := hk.node hp
      rw [hrem.nodeTop, hrem.pending hk.toWheel he]
      exact ⟨hk.top n nd hnd, fun h => h.2 hn⟩
    cases l with
    | unborn =>
      show p'.nodeTop ≤ n
      rw [hrem.nodeTop]; exact ht
    | waiting i expire =>
      have hp := Tracks.pending.1 ht
      obtain ⟨h1, h2, h3⟩ := ht
      by_cases hi : id = i
      · simp only [Life.next, hi, and_self, if_true]
        exact hgone ((hsame i hp h2).mp hi) hp
      · simp only [Life.next, hi, false_and, if_false]
        have hne : n ≠ e.2 := fun hn => hi ((hsame i hp h2).mpr hn)
        refine ⟨(hrem.mem hk.toWheel he).mpr ⟨h1, hne⟩, ?_, h3⟩
        rwa [hrem.nodes, Function.update_of_ne hne]
    | due i =>
      have hp := Tracks.pending.2 ht
      obtain ⟨h2, u, hu, hq⟩ := ht
      by_cases hi : id = i
      · simp only [Life.next, hi, and_self, if_true]
        exact hgone ((hsame i hp h2).mp hi) hp
      · simp only [Life.next, hi, false_and, if_false]
        have hne : n ≠ e.2 := fun hn => hi ((hsame i hp h2).mpr hn)
        refine ⟨by rwa [hrem.nodes, Function.update_of_ne hne], u, hrem.updating.trans hu, ?_⟩
        rcases hq with hq | ⟨j, expire, hj, hrest⟩
        · exact Or.inl (by rw [queued_congr hrem.updating]; exact hq)
        · exact Or.inr ⟨j, expire, (hrem.mem hk.toWheel he).mpr ⟨hj, hne⟩, hrest⟩
    | fired => exact hlast ▸ tracks_over hk ht hcall hs (Or.inl rfl)
    | cancelled => exact hlast ▸ tracks_over hk ht hcall hs (Or.inr rfl)
    | wrong => exact ht.elim

theorem tracks_update {now : Int} (hf : FiresOk beg days t p (.update now)) (hu : p.updating = none) :
    Tracks beg days (lastUpdate beg (t ++ [.update now])) (p.beginUpdate now) n (l.next n (.update now : Event γ)) := by
  have hlast : lastUpdate beg (t ++ [.update now]) = now := lastUpdate_snoc beg t (.update now)
  have hs : Step p (.update now) (p.beginUpdate now) := .update hu
  have hent : (p.beginUpdate now).entries = p.entries := entries_congr rfl rfl
  rw [hlast]
  cases l with
  | unborn => exact ht
  | waiting i expire =>
    obtain ⟨h1, h2, h3⟩ := ht
    by_cases hle : expire ≤ now
    · simp only [Life.next, hle, if_true]
      obtain ⟨hr, hnone⟩ := hf.update now rfl
      have hr' : InRange beg days (now + 0) := by rw [Int.add_zero]; exact hr
      have hcb := (calcBucket_spec hd hc.begTime hc.dayCnt hr').1
      rw [Int.add_zero] at hcb
      have hidle := hc.idle hu
      have hbetween : p.bigBucket * 10 + p.smallBucket ≤ bucketOf beg days expire ∧
          bucketOf beg days expire ≤ bucketOf beg days now := by
        rcases hnone with hturn | hall
        · obtain ⟨t1, t2⟩ := turnOf_between hd (Int.le_of_lt h3) hle hturn
          rw [hidle]
          exact ⟨bucketOf_mono hd (Int.le_of_lt h3) t1, bucketOf_mono hd hle t2⟩
        · exact hall _ _ h1 hle
      refine ⟨h2, _, rfl, Or.inr ⟨_, expire, by rw [hent]; exact h1, hle, hbetween.1, ?_⟩⟩
      show _ ≤ (p.calcBucket now 0).1 * 10 + (p.calcBucket now 0).2
      rw [hcb]; exact hbetween.2
    · simp only [Life.next, hle, if_false]
      exact ⟨by rw [hent]; exact h1, h2, by omega⟩
  | due i =>
    obtain ⟨-, u, hu', -⟩ := ht
    rw [hu] at hu'; cases hu'
  | fired => have h := tracks_over hk ht hf.calls hs (Or.inl rfl); rwa [hlast] at h
  | cancelled => have h := tracks_over hk ht hf.calls hs (Or.inr rfl); rwa [hlast] at h
  | wrong => exact ht.elim

omit hd in
theorem tracks_next {u : Updating} {shown : Shown γ} (hu : p.updating = some u)
    (hn : p.updateNext u = .ok (p', shown)) :
    Tracks beg days (lastUpdate beg (t ++ [.next shown])) p' n (l.next n (.next shown : Event γ)) := by
  have hlast : lastUpdate beg (t ++ [.next shown]) = lastUpdate beg t := lastUpdate_snoc beg t (.next shown)
  have hs : Step p (.next shown) p' := .next hu hn
  have htick := updateNext_tick hk.toHeap hu hn
  rw [hlast]
  cases l with
  | unborn => exact tracks_next_unborn hk hu htick ht
  | waiting i expire => exact tracks_next_waiting hk hu htick (hc.busy u hu).1 ht
  | due i => exact tracks_next_due hk hu htick ht
  | fired => exact hlast ▸ tracks_over hk ht trivial hs (Or.inl rfl)
  | cancelled => exact hlast ▸ tracks_over hk ht trivial hs (Or.inr rfl)
  | wrong => exact ht.elim

theorem tracks_step {e : Event γ} (hf : FiresOk beg days t p e) (hs : Step p e p') :
    Tracks beg days (lastUpdate beg (t ++ [e])) p' n (l.next n e) := by
  cases hs with
  | addTimer hcan ha => exact tracks_addTimer hd hk hc ht hf hcan ha
  | cancelTimer hcan hr => exact tracks_cancelTimer hk ht hf.calls hcan hr
  | update hu => exact tracks_update hd hk hc ht hf hu
  | next hu hn => exact tracks_next hk hc ht hu hn

end

/-! ## All timers through a run -/

def Event.calls (n : Nat) : Event γ → Bool
  | .next (.callback m _) => m == n
  | _ => false

theorem calls_eq_true {n : Nat} {e : Event γ} (h : e.calls n = true) : ∃ cb, e = .next (.callback n cb) := by
  cases e with
  | next shown =>
    cases shown with
    | callback m cb => exact ⟨cb, by rw [eq_of_beq h]⟩
    | _ => cases h
  | _ => cases h

theorem next_fired {n : Nat} {l : Life} {e : Event γ} (hc : e.calls n = false) (hw : l.next n e ≠ .wrong) :
    l ≠ .wrong ∧ (l.next n e = .fired ↔ l = .fired) := by
  cases e with
  | next shown =>
    cases shown with
    | callback m cb =>
      have hm : m ≠ n := by simpa [Event.calls] using hc
      cases l <;> simp_all [Life.next]
    | nothing => cases l <;> simp_all [Life.next]
    | done => cases l <;> simp_all [Life.next]
  | _ =>
    cases l <;> simp only [Life.next] at hw ⊢
    all_goals first | (split <;> simp) | simp_all

/-- A life that has not gone wrong has had its callback once if it is over by it, and not at all otherwise. -/
theorem countP_calls (n : Nat) (t : List (Event γ)) : lifeOf n t ≠ .wrong →
    t.countP (Event.calls n) = if lifeOf n t = .fired then 1 else 0 := by
  induction t using List.reverseRecOn with
  | nil => intro _; rfl
  | append_singleton t e ih =>
    rw [lifeOf_snoc, List.countP_append, List.countP_singleton]
    intro hw
    cases hc : e.calls n with
    | false =>
      obtain ⟨hl, hiff⟩ := next_fired hc hw
      rw [ih hl, if_neg Bool.false_ne_true, Nat.add_zero]
      simp only [hiff]
    | true =>
      obtain ⟨cb, rfl⟩ := calls_eq_true hc
      have hdue : ∃ id, lifeOf n t = .due id := by
        cases hl : lifeOf n t with
        | due id => exact ⟨id, rfl⟩
        | _ => rw [hl] at hw; simp [Life.next] at hw
      obtain ⟨id, hl⟩ := hdue
      rw [ih (by rw [hl]; exact nofun), hl]
      simp [Life.next]

/-! ## Runs -/

section
variable {n₀ beg : Int} {p₀ p : TimerPool γ} (h0 : init n₀ beg = .ok p₀) {t : List (Event γ)}
  (h : Run Step (FiresOk beg (dayCount n₀)) p₀ t p)
include h0

theorem dayCount_range : 1 ≤ dayCount n₀ ∧ dayCount n₀ ≤ 7 := by
  have hne : dayCount n₀ ≠ 0 := by
    intro hz
    unfold init at h0
    rw [if_pos hz] at h0; cases h0
  unfold dayCount at hne ⊢
  split at hne <;> split <;> omega

theorem clock_init : Clock beg (dayCount n₀) [] p₀ := by
  obtain ⟨hu, hb, hm, hn, hc, hbeg, h1, h2, -⟩ := init_eq_ok h0
  refine ⟨?_, hbeg, fun _ => ?_, ?_, ?_⟩
  · unfold init at h0
    split at h0 <;> cases h0
    rfl
  · rw [h1, h2]
    show 0 = (beg - beg) / 100 % _
    rw [Int.sub_self]; rfl
  · intro u hu'; rw [hu] at hu'; cases hu'
  · intro i e he; rw [entries_none (hb i)] at he; cases he

include h

theorem clock_run : Clock beg (dayCount n₀) t p ∧ Known t p ∧
    ∀ n, Tracks beg (dayCount n₀) (lastUpdate beg t) p n (lifeOf n t) := by
  refine h.invariant (fun t p => Clock beg (dayCount n₀) t p ∧ Known t p ∧
    ∀ n, Tracks beg (dayCount n₀) (lastUpdate beg t) p n (lifeOf n t)) ⟨clock_init h0, known_init h0, fun n => ?_⟩ ?_
  · show p₀.nodeTop ≤ n
    unfold init at h0
    split at h0 <;> cases h0
    exact Nat.zero_le n
  · rintro t p e p' - ⟨hc, hk, ht⟩ hf hs
    have hd := dayCount_range h0
    refine ⟨clock_step hd hk hc hf hs, known_step hk hf.calls hs, fun n => ?_⟩
    rw [lifeOf_snoc]
    exact tracks_step hd hk hc (ht n) hf hs

theorem updateNext_ok {u : Updating} (hu : p.updating = some u) : ∃ r, p.updateNext u = .ok r := by
  obtain ⟨hc, hk, -⟩ := clock_run h0 h
  obtain ⟨-, he, hr, h0s, -⟩ := hc.busy u hu
  have hrange := bucketOf_range (dayCount_range h0) hr
  rcases updateNext_cases hk.toWheel hu with hok | herr
  · exact hok
  · -- the only access that can miss is that of the next bucket
    exfalso
    unfold updateNext at herr
    split at herr
    · split at herr
      · cases herr
      · have h1 := Int.tdiv_mul_add_tmod u.sIdx 10
        have h2 := Int.tmod_nonneg 10 h0s
        have h3 := Int.tmod_lt_of_pos u.sIdx (by decide : (0 : Int) < 10)
        rw [slot, if_pos (by unfold bigBucketCnt smallBucketCnt at *; omega), Int.tdiv_mul_add_tmod, Except.ok_bind] at herr
        cases hb : p.bucket u.sIdx with
        | none => rw [hb] at herr; cases herr
        | some m =>
          rw [hb] at herr
          simp only at herr
          rw [readMap_of_bucket hk.toHeap hb] at herr
          cases herr
    · rename_i pmap hpc
      rw [readMap_of_bucket hk.toHeap (held_nodelist hk.toHeap hu hpc)] at herr
      cases herr
    · unfold readNode at herr
      split at herr <;> cases herr
    · unfold readNode at herr
      split at herr <;> cases herr

theorem addTimer_ok {now interval : Int} {func : γ} {id : Nat}
    (hf : FiresOk beg (dayCount n₀) t p (.addTimer now interval func p.nodeTop id)) :
    ∃ r, p.addTimer now interval func = .ok r := by
  obtain ⟨hc, hk, -⟩ := clock_run h0 h
  rcases addTimer_cases hk.toHeap now interval func with hok | herr
  · exact hok
  · exfalso
    unfold addTimer at herr
    split at herr
    · cases herr
    · split at herr
      · cases herr
      · rename_i hi0 hi1
        rw [hc.dayCnt] at hi1
        have hr := hf.add _ _ _ _ _ rfl (by omega) (by unfold period; omega)
        obtain ⟨-, hs⟩ := calcBucket_spec (dayCount_range h0) hc.begTime hc.dayCnt hr
        simp only at herr
        rw [slot, if_pos hs, Except.ok_bind] at herr
        have hidx : 0 ≤ (p.calcBucket now interval).1 * 10 + (p.calcBucket now interval).2 ∧
            (p.calcBucket now interval).1 * 10 + (p.calcBucket now interval).2 < bigBucketCnt * 10 := by
          unfold bigBucketCnt smallBucketCnt at *; omega
        obtain ⟨hq, hqb, -, -⟩ := bucketMap_spec hk.toHeap hidx
        rw [readMap_of_bucket hq hqb] at herr
        cases herr

/-- In every run whose steps meet `FiresOk` no timer goes wrong: each is called once, in the first `Update`
that begins at or after its expiry, before that `Update` returns, and not at all once cancelled. The calls
that meet the conditions return, and so does `Update` when its callbacks do. -/
theorem fires_once :
    (∀ n, lifeOf n t ≠ .wrong) ∧
    (∀ n, t.countP (Event.calls n) = if lifeOf n t = .fired then 1 else 0) ∧
    (∀ now interval func id, FiresOk beg (dayCount n₀) t p (.addTimer now interval func p.nodeTop id) →
      ∃ r, p.addTimer now interval func = .ok r) ∧
    (∀ u, p.updating = some u → ∃ p' shown, p.updateNext u = .ok (p', shown) ∧ (shown ≠ .done →
      ∃ u', p'.updating = some u' ∧ Prod.Lex (· < ·) (Prod.Lex (· < ·) (· < ·)) (rank u') (rank u))) := by
  have hw : ∀ n, lifeOf n t ≠ .wrong := by
    intro n he
    have ht := (clock_run h0 h).2.2 n
    rw [he] at ht
    exact ht
  refine ⟨hw, fun n => countP_calls n t (hw n), fun _ _ _ _ hf => addTimer_ok h0 h hf, ?_⟩
  intro u hu
  obtain ⟨hc, hk, -⟩ := clock_run h0 h
  obtain ⟨⟨p', shown⟩, hn⟩ := updateNext_ok h0 h hu
  refine ⟨p', shown, hn, fun hs => ?_⟩
  obtain ⟨u', hu', hlt, -⟩ := rank_tick (updateNext_tick hk.toHeap hu hn) hs (hc.busy u hu).2.2.2.2
  exact ⟨u', hu', hlt⟩

end

instance (beg days : Int) (t : List (Event γ)) : (e : Event γ) → Decidable (ClockOk beg days t e)
  | .addTimer _ _ _ _ _ => inferInstanceAs (Decidable (_ ≤ _))
  | .cancelTimer _ _ => inferInstanceAs (Decidable True)
  | .update _ => inferInstanceAs (Decidable (_ ∧ _))
  | .next _ => inferInstanceAs (Decidable True)

/-- What `Update` shows when it calls one timer. -/
def oneShown : List (Shown Unit) := [.nothing, .nothing, .callback 0 (), .nothing, .nothing, .done]

theorem fires_once_one :
    let t : List (Event Unit) := [.addTimer 0 100 () 0 4294967297, .update 100] ++ oneShown.map .next
    (∀ n, lifeOf n t ≠ .wrong) ∧ lifeOf 0 t = .fired ∧ t.countP (Event.calls 0) = 1 := by
  obtain ⟨p, hp⟩ : ∃ p, newPool.addTimer 0 100 () = .ok (p, 4294967297) := ⟨_, rfl⟩
  have hadd : FiresOk 0 (dayCount 1) [] newPool (.addTimer 0 100 () newPool.nodeTop 4294967297) := by
    refine ⟨Int.le_refl 0, fun _ _ => newPool_addOk 0 100, ?_, nofun⟩
    rintro _ _ _ _ _ h - -
    cases h
    exact ⟨by decide, by decide, by decide⟩
  have hupdate : FiresOk 0 (dayCount 1) [.addTimer 0 100 () 0 4294967297] p (.update 100) := by
    refine ⟨by decide, trivial, nofun, ?_⟩
    rintro _ ⟨⟩
    exact ⟨⟨by decide, by decide, by decide⟩, .inl (by decide)⟩
  have hrun : Run Step (FiresOk 0 (dayCount 1)) newPool ([.addTimer 0 100 () 0 4294967297] ++ [.update 100])
      (p.beginUpdate 100) :=
    .snoc (.snoc .nil hadd (.addTimer rfl hp)) hupdate (.update (by cases hp; rfl))
  obtain ⟨p', hp'⟩ := Option.isSome_iff_exists.mp
    (show ((p.beginUpdate 100).replay (oneShown.map .next)).isSome by cases hp; decide)
  have hnext : Run Step (fun _ _ e => ∃ shown, e = .next shown) (p.beginUpdate 100) (oneShown.map .next) p' :=
    replay_run (C := fun _ e => ∃ shown, e = .next shown) _ hp' fun k hk => ⟨oneShown.get ⟨k, by simpa using hk⟩, by simp⟩
  have hall := hrun.append (hnext.mono fun _ _ _ ⟨_, he⟩ => he ▸ ⟨trivial, trivial, nofun, nofun⟩)
  obtain ⟨h1, h2, -⟩ := fires_once (show init 1 0 = .ok newPool from rfl) hall
  exact ⟨h1, by decide, (h2 0).trans (by decide)⟩

/-- Two timers with one expiry: the second is in no bucket, and the `Update` they are due at returns without it. -/
theorem equal_expiry_lost : ∃ p : TimerPool Unit,
    Run Step (fun t _ e => ClockOk 0 1 t e) newPool
      [.addTimer 0 100 () 0 4294967297, .addTimer 0 100 () 1 4294967298, .update 100, .next .nothing, .next .nothing,
        .next (.callback 0 ()), .next .nothing, .next .nothing, .next .done] p ∧
    lifeOf 1 ([.addTimer 0 100 () 0 4294967297, .addTimer 0 100 () 1 4294967298, .update 100, .next .nothing,
      .next .nothing, .next (.callback 0 ()), .next .nothing, .next .nothing,
      .next .done] : List (Event Unit)) = .wrong := by
  have h : (newPool.replay [.addTimer 0 100 () 0 4294967297, .addTimer 0 100 () 1 4294967298, .update 100,
      .next .nothing, .next .nothing, .next (.callback 0 ()), .next .nothing, .next .nothing,
      .next .done]).isSome = true := by
    decide
  obtain ⟨p, hp⟩ := Option.isSome_iff_exists.mp h
  exact ⟨p, replay_run (C := ClockOk 0 1) _ hp (by decide), by decide⟩

end TimerPool

end GlobalServer
