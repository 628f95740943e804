import GlobalServer.Base.TimePoolSound
import GlobalServer.Lib.Runs

/-!
# Which timers `CancelTimer` finds

The calls of a run, read by themselves, say which timers are pending: those
added, less those cancelled and those called (`pendingOf`). The pool's own
pending timers are these as long as no two timers of one expiry are in the
wheel together, no id comes back while its timer is pending, and no callback
cancels the last timer left in the bucket being emptied. `CancelTimer` then
finds every pending timer that its `Update` has not taken out already.
-/

namespace GlobalServer

open Bytes Runs

namespace TimerPool

variable {γ : Type}

/-- Pending timers, as node and id, after one more event. -/
def Event.pend (l : List (Nat × Nat)) : Event γ → List (Nat × Nat)
  | .addTimer _ _ _ node id => if id = 0 then l else (node, id) :: l
  | .cancelTimer id ret => if ret = 0 then l.filter fun x => x.2 ≠ id else l
  | .next (.callback node _) => l.filter fun x => x.1 ≠ node
  | _ => l

def pendingOf (t : List (Event γ)) : List (Nat × Nat) := t.foldl Event.pend []

theorem pendingOf_snoc (t : List (Event γ)) (e : Event γ) : pendingOf (t ++ [e]) = e.pend (pendingOf t) := by
  unfold pendingOf; rw [List.foldl_append]; rfl

/-- The call leaves `Update` its map, and the id is not that of a timer taken out and still to be called. -/
structure CancelOk (p : TimerPool γ) (id : Nat) : Prop where
  keeps : p.KeepsHeldMap id
  queued : ∀ n ∈ p.queued, ∀ nd, p.nodes n = some nd → nd.timerId ≠ id

/-- What the calls of a run have to meet. -/
def CallsOk (p : TimerPool γ) : Event γ → Prop
  | .addTimer now interval _ _ _ =>
    0 < interval → interval ≤ bigBucketCnt * p.maxIntervalDay * 1000 → p.AddOk now interval
  | .cancelTimer id _ => p.KeepsHeldMap id
  | _ => True

/-- What the pool knows of the events so far. -/
structure Known (t : List (Event γ)) (p : TimerPool γ) : Prop extends Wheel p where
  pend : ∀ n id, (n, id) ∈ pendingOf t ↔ p.Pending n ∧ ∃ nd, p.nodes n = some nd ∧ nd.timerId = id
  ids : ∀ m n id, (m, id) ∈ pendingOf t → (n, id) ∈ pendingOf t → m = n
  idRange : ∀ now interval func node id, Event.addTimer now interval func node id ∈ t → id ≠ 0 →
    0 ≤ highWord id ∧ highWord id < bigBucketCnt * 10

theorem init_eq_ok {days now : Int} {p : TimerPool γ} (h : init days now = .ok p) :
    p.updating = none ∧ (∀ i, p.bucket i = none) ∧ (∀ m, p.maps m = none) ∧ (∀ n, p.nodes n = none) ∧
      p.curTimerId = 1 ∧ p.begTime = now ∧ p.bigBucket = 0 ∧ p.smallBucket = 0 ∧ 1 ≤ p.maxIntervalDay ∧
      p.maxIntervalDay ≤ 7 := by
  unfold init at h
  split at h
  · cases h
  · rename_i hd
    cases h
    have hr : 1 ≤ dayCount days ∧ dayCount days ≤ 7 := by
      unfold dayCount at hd ⊢
      split <;> omega
    exact ⟨rfl, fun _ => rfl, fun _ => rfl, fun _ => rfl, rfl, rfl, rfl, rfl, hr⟩

theorem wheel_init {days now : Int} {p : TimerPool γ} (h : init days now = .ok p) : Wheel p := by
  obtain ⟨hu, hb, hm, hn, hc, -⟩ := init_eq_ok h
  have he : ∀ i, p.entries i = [] := fun i => entries_none (hb i)
  have hd : p.detached = [] := detached_none hu
  refine ⟨⟨?_, ?_, ?_, ?_, ?_⟩, ?_, ?_, ?_, ?_, ?_, ?_, ?_⟩
  · intro i m hi; rw [hb] at hi; cases hi
  · intro i j m hi; rw [hb] at hi; cases hi
  · intro m l hl; rw [hm] at hl; cases hl
  · intro i m hi; rw [hb] at hi; cases hi
  · intro i m hi; unfold heldMap at hi; rw [hu] at hi; cases hi
  · intro i; rw [he]; exact OrdMap.sorted_nil
  · intro i e hi; rw [he] at hi; cases hi
  · intro n nd hnd; rw [hn] at hnd; cases hnd
  · intro n hnd; rw [hd] at hnd; cases hnd
  · rw [hd]; exact List.nodup_nil
  · intro n hnd; rw [hd] at hnd; cases hnd
  · rw [hc]; omega

theorem pending_init {days now : Int} {p : TimerPool γ} (h : init days now = .ok p) (n : Nat) : ¬ p.Pending n := by
  obtain ⟨hu, hb, -⟩ := init_eq_ok h
  rintro (⟨i, k, hk⟩ | hq)
  · rw [entries_none (hb i)] at hk; cases hk
  · rw [queued_none hu] at hq; cases hq

theorem known_init {days now : Int} {p : TimerPool γ} (h : init days now = .ok p) : Known [] p where
  toWheel := wheel_init h
  pend n id := by
    constructor
    · intro hm; cases hm
    · exact fun hp => absurd hp.1 (pending_init h n)
  ids m n id hm := by cases hm
  idRange _ _ _ _ _ hm := by cases hm

section
variable {t : List (Event γ)} {p p' : TimerPool γ} (h : Known t p)
include h

theorem known_addTimer {now interval : Int} {func : γ} {id : Nat}
    (hc : p.CallsOk (.addTimer now interval func p.nodeTop id)) (ha : p.addTimer now interval func = .ok (p', id)) :
    Known (t ++ [.addTimer now interval func p.nodeTop id]) p' := by
  rcases addTimer_spec h.toHeap ha with ⟨rfl, rfl⟩ | ⟨idx, hidx, hr0, hr1, hi0, hi1, hid, hadd⟩
  · refine ⟨h.toWheel, ?_, ?_, ?_⟩
    · intro n id; rw [pendingOf_snoc]; exact h.pend n id
    · intro m n id; rw [pendingOf_snoc]; exact h.ids m n id
    · intro now' interval' func' node' id' hm hne
      rcases List.mem_append.mp hm with hm | hm
      · exact h.idRange _ _ _ _ _ hm hne
      · cases List.mem_singleton.mp hm; exact absurd rfl hne
  · have hok := hc hi0 hi1
    have hw := hadd.wheel h.toWheel ⟨hr0, hr1⟩
    have hid0 : id ≠ 0 := by
      have := h.nextTimerId_lt
      rw [hid]; unfold timerIdAt; omega
    have hold : ∀ n, p.Pending n → n ≠ p.nodeTop := by
      rintro n hn rfl
      obtain ⟨nd, hnd⟩ := h.node hn
      exact Nat.lt_irrefl _ (h.top _ nd hnd)
    have hpend : ∀ n id', (n, id') ∈ pendingOf (t ++ [.addTimer now interval func p.nodeTop id]) ↔
        (n, id') ∈ pendingOf t ∨ (n = p.nodeTop ∧ id' = id) := by
      intro n id'
      rw [pendingOf_snoc]
      simp only [Event.pend, if_neg hid0, List.mem_cons, Prod.mk.injEq]
      exact or_comm
    have hnew : ∀ n, (n, id) ∉ pendingOf t := by
      intro n hn
      obtain ⟨hp, nd, hnd, hni⟩ := (h.pend n id).mp hn
      exact hok.id n nd hp hnd (by rw [hni, hid, hidx])
    refine ⟨hw, ?_, ?_, ?_⟩
    · intro n id'
      rw [hpend, hadd.pending hok.expire, hadd.nodes, h.pend]
      by_cases hn : n = p.nodeTop
      · subst hn
        have hnp : ¬ p.Pending p.nodeTop := fun hp => hold _ hp rfl
        simp only [hnp, false_and, false_or, true_and, Function.update_self, Option.some.injEq,
          exists_eq_left', or_true]
        rw [hid]; exact eq_comm
      · simp only [hn, false_and, or_false, Function.update_of_ne hn]
    · intro m n id' hm hn
      rw [hpend] at hm hn
      rcases hm with hm | ⟨rfl, rfl⟩
      · rcases hn with hn | ⟨rfl, rfl⟩
        · exact h.ids m n id' hm hn
        · exact absurd hm (hnew m)
      · rcases hn with hn | ⟨rfl, -⟩
        · exact absurd hn (hnew n)
        · rfl
    · intro now' interval' func' node' id' hm hne
      rcases List.mem_append.mp hm with hm | hm
      · exact h.idRange _ _ _ _ _ hm hne
      · cases List.mem_singleton.mp hm
        rw [hid, highWord_timerIdAt h.toWheel hr0 hr1]
        exact ⟨hr0, hr1⟩

theorem Known.removed {id : Nat} {idx : Int} {e : Int × Nat} (he : e ∈ p.entries idx)
    (hid : ∃ nd, p.nodes e.2 = some nd ∧ nd.timerId = id) : (e.2, id) ∈ pendingOf t ∧
      ∀ n, p.Pending n → (n ≠ e.2 ↔ (n, id) ∉ pendingOf t) := by
  have hmem : (e.2, id) ∈ pendingOf t := (h.pend e.2 id).mpr ⟨Or.inl ⟨idx, e.1, he⟩, hid⟩
  refine ⟨hmem, fun n hn => ?_⟩
  constructor
  · exact fun hne hm => hne (h.ids n e.2 id hm hmem)
  · rintro hm rfl; exact hm hmem

theorem known_cancelTimer {id : Nat} {ret : Int} (hc : p.KeepsHeldMap id) (hr : p.cancelTimer id = .ok (p', ret)) :
    Known (t ++ [.cancelTimer id ret]) p' := by
  have hrange : ∀ now interval func node id', Event.addTimer now interval func node id' ∈ t ++ [.cancelTimer id ret] →
      id' ≠ 0 → 0 ≤ highWord id' ∧ highWord id' < bigBucketCnt * 10 := by
    intro now interval func node id' hm hne
    rcases List.mem_append.mp hm with hm | hm
    · exact h.idRange _ _ _ _ _ hm hne
    · cases List.mem_singleton.mp hm
  rcases cancelTimer_spec h.toHeap hc hr with ⟨rfl, rfl, -⟩ | ⟨rfl, e, he, hid, hrem⟩
  · refine ⟨h.toWheel, ?_, ?_, hrange⟩
    · intro n id'; rw [pendingOf_snoc]; exact h.pend n id'
    · intro m n id'; rw [pendingOf_snoc]; exact h.ids m n id'
  · obtain ⟨hmem, hiff⟩ := h.removed he hid
    have hpend : ∀ n id', (n, id') ∈ pendingOf (t ++ [.cancelTimer id 0]) ↔ (n, id') ∈ pendingOf t ∧ id' ≠ id := by
      intro n id'
      rw [pendingOf_snoc]
      simp only [Event.pend, if_true, List.mem_filter, decide_not, Bool.not_eq_true', decide_eq_false_iff_not, ne_eq]
    refine ⟨hrem.wheel h.toWheel he, ?_, ?_, hrange⟩
    · intro n id'
      rw [hpend, hrem.pending h.toWheel he, hrem.nodes, h.pend]
      constructor
      · rintro ⟨⟨hp, nd, hnd, hni⟩, hne⟩
        have hn : n ≠ e.2 := by
          rintro rfl
          obtain ⟨nd', hnd', hni'⟩ := hid
          rw [hnd] at hnd'
          cases hnd'
          exact hne (hni.symm.trans hni')
        exact ⟨⟨hp, hn⟩, nd, by rw [Function.update_of_ne hn]; exact hnd, hni⟩
      · rintro ⟨⟨hp, hn⟩, nd, hnd, hni⟩
        rw [Function.update_of_ne hn] at hnd
        refine ⟨⟨hp, nd, hnd, hni⟩, ?_⟩
        rintro rfl
        exact (hiff n hp).mp hn ((h.pend n id').mpr ⟨hp, nd, hnd, hni⟩)
    · intro m n id' hm hn
      exact h.ids m n id' ((hpend m id').mp hm).1 ((hpend n id').mp hn).1

theorem known_update {now : Int} (hu : p.updating = none) : Known (t ++ [.update now]) (p.beginUpdate now) where
  toWheel := wheel_begin h.toWheel hu now
  pend n id := by rw [pendingOf_snoc, pending_begin hu]; exact h.pend n id
  ids m n id := by rw [pendingOf_snoc]; exact h.ids m n id
  idRange now' interval func node id hm hne := by
    rcases List.mem_append.mp hm with hm | hm
    · exact h.idRange _ _ _ _ _ hm hne
    · cases List.mem_singleton.mp hm

theorem known_next {u : Updating} {shown : Shown γ} (hu : p.updating = some u)
    (hn : p.updateNext u = .ok (p', shown)) : Known (t ++ [.next shown]) p' := by
  have ht := updateNext_tick h.toHeap hu hn
  have hw := wheel_tick h.toWheel hu ht
  have hpend : ∀ n id, (n, id) ∈ pendingOf (t ++ [.next shown]) ↔
      (n, id) ∈ pendingOf t ∧ ∀ cb, shown ≠ .callback n cb := by
    intro n id
    rw [pendingOf_snoc]
    cases shown with
    | callback m cb =>
      simp only [Event.pend, List.mem_filter, decide_not, Bool.not_eq_true', decide_eq_false_iff_not, ne_eq,
        Shown.callback.injEq, not_and, and_congr_right_iff]
      intro _
      exact ⟨fun hne _ e => absurd e.symm hne, fun hne e => hne cb e.symm rfl⟩
    | nothing => simp [Event.pend]
    | done => simp [Event.pend]
  refine ⟨hw, ?_, ?_, ?_⟩
  · intro n id
    rw [hpend, pending_tick h.toWheel hu ht, h.pend]
    constructor
    · rintro ⟨⟨hp, nd, hnd, hid⟩, hs⟩
      obtain ⟨nd', hnd'⟩ := hw.node ((pending_tick h.toWheel hu ht).mpr ⟨hp, hs⟩)
      have := nodes_tick ht hnd'
      rw [hnd] at this
      cases this
      exact ⟨⟨hp, hs⟩, nd, hnd', hid⟩
    · rintro ⟨⟨hp, hs⟩, nd, hnd, hid⟩
      exact ⟨⟨hp, nd, nodes_tick ht hnd, hid⟩, hs⟩
  · intro m n id hm hn'
    exact h.ids m n id ((hpend m id).mp hm).1 ((hpend n id).mp hn').1
  · intro now interval func node id hm hne
    rcases List.mem_append.mp hm with hm | hm
    · exact h.idRange _ _ _ _ _ hm hne
    · cases List.mem_singleton.mp hm

theorem known_step {e : Event γ} (hc : p.CallsOk e) (hs : Step p e p') : Known (t ++ [e]) p' := by
  cases hs with
  | addTimer _ ha => exact known_addTimer h hc ha
  | cancelTimer _ hr => exact known_cancelTimer h hc hr
  | update hu => exact known_update h hu
  | next hu hn => exact known_next h hu hn

end

theorem known_run {days beg : Int} {p₀ p : TimerPool γ} (h0 : init days beg = .ok p₀) {t : List (Event γ)}
    (h : Run Step (fun _ => CallsOk) p₀ t p) : Known t p :=
  h.invariant Known (known_init h0) fun _ _ _ _ _ hk hc hs => known_step hk hc hs

/-! ## Timers that are not pending any more -/

theorem pending_of_callback {p p' : TimerPool γ} {u : Updating} {n : Nat} {cb : γ} (hu : p.updating = some u)
    (ht : Tick p u p' (.callback n cb)) : p.Pending n := by
  cases ht with
  | call hpc _ =>
    refine Or.inr ?_
    rw [queued_nodelist hu hpc]
    exact List.mem_cons_self

theorem node_of_callback {p p' : TimerPool γ} {u : Updating} {n : Nat} {cb : γ} (ht : Tick p u p' (.callback n cb)) :
    ∃ nd, p.nodes n = some nd ∧ nd.cb = cb := by
  cases ht with
  | call _ hnd => exact ⟨_, hnd, rfl⟩

theorem detached_of_callback {p p' : TimerPool γ} {u : Updating} {n : Nat} {cb : γ} (hu : p.updating = some u)
    (ht : Tick p u p' (.callback n cb)) : n ∈ p.detached := by
  cases ht with
  | call hpc _ =>
    rw [detached_nodelist hu hpc]
    exact List.mem_cons_self

theorem nodeTop_tick {p p' : TimerPool γ} {u : Updating} {shown : Shown γ} (ht : Tick p u p' shown) :
    p'.nodeTop = p.nodeTop := by
  cases ht with
  | close hpc => split <;> rfl
  | _ => rfl

theorem gone_step {t : List (Event γ)} {p p' : TimerPool γ} (h : Known t p) {e : Event γ} (hc : p.CallsOk e)
    (hs : Step p e p') {n : Nat} (hn : n < p.nodeTop) (hp : ¬ p.Pending n) :
    n < p'.nodeTop ∧ ¬ p'.Pending n ∧ ∀ cb, e ≠ .next (.callback n cb) := by
  cases hs with
  | addTimer _ ha =>
    rcases addTimer_spec h.toHeap ha with ⟨rfl, rfl⟩ | ⟨idx, -, -, -, hi0, hi1, -, hadd⟩
    · exact ⟨hn, hp, fun _ e => by cases e⟩
    · rw [hadd.nodeTop, hadd.pending (hc hi0 hi1).expire]
      refine ⟨by omega, ?_, fun _ e => by cases e⟩
      rintro (hpn | rfl)
      · exact hp hpn
      · exact Nat.lt_irrefl _ hn
  | cancelTimer _ hr =>
    rcases cancelTimer_spec h.toHeap hc hr with ⟨rfl, rfl, -⟩ | ⟨rfl, e, he, hid, hrem⟩
    · exact ⟨hn, hp, fun _ e => by cases e⟩
    · rw [hrem.nodeTop, hrem.pending h.toWheel he]
      exact ⟨hn, fun hpn => hp hpn.1, fun _ e => by cases e⟩
  | update hu =>
    rw [pending_begin hu]
    exact ⟨hn, hp, fun _ e => by cases e⟩
  | next hu hnx =>
    have ht := updateNext_tick h.toHeap hu hnx
    rw [nodeTop_tick ht, pending_tick h.toWheel hu ht]
    refine ⟨hn, fun hpn => hp hpn.1, ?_⟩
    rintro cb e
    cases e
    exact hp (pending_of_callback hu ht)

/-- Once cancelled, a timer is gone, and its callback is not among the later events. -/
theorem cancelled_run {days beg : Int} {p₀ p : TimerPool γ} (h0 : init days beg = .ok p₀) {t : List (Event γ)}
    (h : Run Step (fun _ => CallsOk) p₀ t p) :
    ∀ t₁ id t₂, t = t₁ ++ .cancelTimer id 0 :: t₂ → ∀ n, (n, id) ∈ pendingOf t₁ →
      n < p.nodeTop ∧ ¬ p.Pending n ∧ ∀ cb, .next (.callback n cb) ∉ t₂ := by
  refine h.invariant (fun t p => ∀ t₁ id t₂, t = t₁ ++ .cancelTimer id 0 :: t₂ → ∀ n, (n, id) ∈ pendingOf t₁ →
      n < p.nodeTop ∧ ¬ p.Pending n ∧ ∀ cb, .next (.callback n cb) ∉ t₂) ?_ ?_
  · intro t₁ id t₂ he; simp at he
  · intro t p e p' hr ih hc hs t₁ id t₂ he n hn
    have hk := known_run h0 hr
    rcases List.eq_nil_or_concat t₂ with rfl | ⟨t₂', e', rfl⟩
    · obtain ⟨rfl, hee⟩ := List.append_inj' he rfl
      cases hee
      obtain ⟨hpn, nd, hnd, hid⟩ := (hk.pend n id).mp hn
      have hk' := known_step hk hc hs
      have hgone : (n, id) ∉ pendingOf (t ++ [.cancelTimer id 0]) := by
        rw [pendingOf_snoc]
        simp [Event.pend]
      cases hs with
      | cancelTimer _ hr' =>
        rcases cancelTimer_spec hk.toHeap hc hr' with ⟨h1, -⟩ | ⟨-, e, he, hid', hrem⟩
        · cases h1
        · have htop := hk.top n nd hnd
          rw [hrem.nodeTop, hrem.pending hk.toWheel he]
          refine ⟨htop, ?_, by simp⟩
          rintro ⟨-, hne⟩
          exact ((hk.removed he hid').2 n hpn).mp hne hn
    · rw [List.concat_eq_append, ← List.cons_append, ← List.append_assoc] at he
      obtain ⟨het, hee⟩ := List.append_inj' he rfl
      obtain ⟨h1, h2, h3⟩ := ih t₁ id t₂' het n hn
      obtain ⟨g1, g2, g3⟩ := gone_step hk hc hs h1 h2
      refine ⟨g1, g2, fun cb hm => ?_⟩
      rw [List.concat_eq_append] at hm
      rcases List.mem_append.mp hm with hm | hm
      · exact h3 cb hm
      · cases hee
        exact g3 cb (List.mem_singleton.mp hm).symm

/-- No call and no step of `Update` reads or frees what is freed already. -/
structure NoUseAfterFree (p : TimerPool γ) : Prop where
  addTimer : ∀ now interval func, p.addTimer now interval func ≠ .error .useAfterFree
  cancelTimer : ∀ id, p.cancelTimer id ≠ .error .useAfterFree
  update : ∀ u, p.updating = some u → p.updateNext u ≠ .error .useAfterFree

theorem noUseAfterFree {p : TimerPool γ} (h : Wheel p) : NoUseAfterFree p where
  addTimer now interval func := by
    rcases addTimer_cases h.toHeap now interval func with ⟨r, hr⟩ | hr <;> rw [hr] <;> intro he <;> cases he
  cancelTimer id := by
    rcases cancelTimer_cases h id with ⟨r, hr⟩ | ⟨hr, -⟩ <;> rw [hr] <;> intro he <;> cases he
  update u hu := by
    rcases updateNext_cases h hu with ⟨r, hr⟩ | hr <;> rw [hr] <;> intro he <;> cases he

theorem Known.cancel {t : List (Event γ)} {p : TimerPool γ} (h : Known t p) {id : Nat} (h0 : id ≠ 0)
    (hm : ∃ now interval func node, Event.addTimer now interval func node id ∈ t) (hc : p.CancelOk id) :
    ∃ p' ret, p.cancelTimer id = .ok (p', ret) ∧ (ret = 0 ↔ ∃ n, (n, id) ∈ pendingOf t) ∧
      ∀ n, p'.Pending n ↔ p.Pending n ∧ (n, id) ∉ pendingOf t := by
  obtain ⟨now, interval, func, node, hm⟩ := hm
  rcases cancelTimer_cases h.toWheel id with ⟨⟨p', ret⟩, hr⟩ | ⟨-, hn⟩
  · refine ⟨p', ret, hr, ?_⟩
    rcases cancelTimer_spec h.toHeap hc.keeps hr with ⟨rfl, rfl, hnone⟩ | ⟨rfl, e, he, hid, hrem⟩
    · have hnot : ∀ n, (n, id) ∉ pendingOf t := by
        intro n hn
        obtain ⟨hp, nd, hnd, hni⟩ := (h.pend n id).mp hn
        rcases hp with ⟨i, k, hk⟩ | hq
        · obtain ⟨nd', hnd', -, hw⟩ := h.entry i _ hk
          rw [hnd] at hnd'
          cases hnd'
          rw [hni] at hw
          subst hw
          obtain ⟨nd₂, hnd₂, hne⟩ := hnone _ hk
          rw [hnd] at hnd₂
          cases hnd₂
          exact hne hni
        · exact hc.queued n hq nd hnd hni
      refine ⟨⟨fun e => absurd e (by decide), fun ⟨n, hn⟩ => absurd hn (hnot n)⟩, fun n => ?_⟩
      exact ⟨fun hp => ⟨hp, hnot n⟩, fun hp => hp.1⟩
    · obtain ⟨hmem, hiff⟩ := h.removed he hid
      refine ⟨⟨fun _ => ⟨e.2, hmem⟩, fun _ => rfl⟩, fun n => ?_⟩
      rw [hrem.pending h.toWheel he]
      exact and_congr_right fun hp => hiff n hp
  · exact absurd (h.idRange _ _ _ _ _ hm h0) hn

/-- In every run whose calls meet `CallsOk`: the pool's timers are those the calls leave pending,
`CancelTimer` answers 0 for exactly these and removes that one only, a callback is called for a pending
timer only and never after a cancel, and nothing is used after it was deleted. -/
theorem cancel_iff_pending {days beg : Int} {p₀ p : TimerPool γ} (h0 : init days beg = .ok p₀) {t : List (Event γ)}
    (h : Run Step (fun _ => CallsOk) p₀ t p) :
    (∀ n, p.Pending n ↔ ∃ id, (n, id) ∈ pendingOf t) ∧
    (∀ id, id ≠ 0 → (∃ now interval func node, Event.addTimer now interval func node id ∈ t) → p.CancelOk id →
      ∃ p' ret, p.cancelTimer id = .ok (p', ret) ∧ (ret = 0 ↔ ∃ n, (n, id) ∈ pendingOf t) ∧
        ∀ n, p'.Pending n ↔ p.Pending n ∧ (n, id) ∉ pendingOf t) ∧
    (∀ t₁ n cb t₂, t = t₁ ++ .next (.callback n cb) :: t₂ → ∃ id, (n, id) ∈ pendingOf t₁) ∧
    (∀ t₁ id t₂, t = t₁ ++ .cancelTimer id 0 :: t₂ → ∀ n, (n, id) ∈ pendingOf t₁ →
      ∀ cb, .next (.callback n cb) ∉ t₂) ∧
    NoUseAfterFree p := by
  have hk := known_run h0 h
  have hpend : ∀ {t : List (Event γ)} {p : TimerPool γ}, Known t p → ∀ n, p.Pending n →
    ∃ id, (n, id) ∈ pendingOf t := by
    intro t p hk n hn
    obtain ⟨nd, hnd⟩ := hk.node hn
    exact ⟨nd.timerId, (hk.pend n nd.timerId).mpr ⟨hn, nd, hnd, rfl⟩⟩
  refine ⟨fun n => ⟨hpend hk n, fun ⟨id, hid⟩ => ((hk.pend n id).mp hid).1⟩,
    fun id hi hm hc => hk.cancel hi hm hc, ?_,
    fun t₁ id t₂ he n hn => (cancelled_run h0 h t₁ id t₂ he n hn).2.2, noUseAfterFree hk.toWheel⟩
  intro t₁ n cb t₂ he
  obtain ⟨p₁, p₂, hr₁, -, hs⟩ := h.event t₁ _ t₂ he
  have hk₁ := known_run h0 hr₁
  cases hs with
  | next hu hn => exact hpend hk₁ n (pending_of_callback hu (updateNext_tick hk₁.toHeap hu hn))

theorem replay_run [DecidableEq γ] {C : List (Event γ) → Event γ → Prop} : ∀ (t : List (Event γ))
    {p p' : TimerPool γ},
    p.replay t = some p' → (∀ k (h : k < t.length), C (t.take k) (t.get ⟨k, h⟩)) →
    Run Step (fun t₁ _ e => C t₁ e) p t p'
  | [], p, p', h, _ => by cases h; exact .nil
  | e :: t, p, p', h, hC => by
    obtain ⟨p₁, h1, h2⟩ := Option.bind_eq_some_iff.mp h
    have hone : Run Step (fun t₁ _ e => C t₁ e) p [e] p₁ := .snoc .nil (hC 0 (Nat.succ_pos _)) (replay_step h1)
    exact hone.append (replay_run (C := fun t₁ => C (e :: t₁)) t h2 fun k hk => hC (k + 1) (Nat.succ_lt_succ hk))

/-- A pool new at time 0. -/
abbrev newPool : TimerPool Unit := new 1 0

theorem newPool_addOk (now interval : Int) : newPool.AddOk now interval := by
  have hempty : ∀ i e, e ∉ newPool.entries i := fun i e h => by cases h
  refine ⟨fun i e h => absurd h (hempty i e), ?_⟩
  rintro n nd (⟨i, k, hk⟩ | hq) -
  · exact absurd hk (hempty i _)
  · cases hq

theorem cancel_iff_pending_one : ∃ p : TimerPool Unit, ∃ p' ret, p.cancelTimer 4294967297 = .ok (p', ret) ∧
    (ret = 0 ↔ ∃ n, (n, 4294967297) ∈ pendingOf [(Event.addTimer 0 100 () 0 4294967297 : Event Unit)]) := by
  have h0 : init 1 0 = .ok newPool := rfl
  obtain ⟨p, hp⟩ : ∃ p, newPool.addTimer 0 100 () = .ok (p, 4294967297) := ⟨_, rfl⟩
  have hrun : Run Step (fun _ => CallsOk) newPool ([] ++ [.addTimer 0 100 () 0 4294967297]) p :=
    .snoc .nil (fun _ _ => newPool_addOk 0 100) (.addTimer rfl hp)
  have hu : p.updating = none := by
    rcases addTimer_spec (wheel_init h0).toHeap hp with ⟨h, -⟩ | ⟨_, -, -, -, -, -, -, ha⟩
    · cases h
    · exact ha.updating
  have hok : p.CancelOk 4294967297 := by
    constructor
    · intro i m e nd hh
      rw [heldMap, hu] at hh; cases hh
    · intro n hn
      rw [queued_none hu] at hn; cases hn
  obtain ⟨-, hc, -⟩ := cancel_iff_pending h0 hrun
  obtain ⟨p', ret, hr, hret, -⟩ := hc 4294967297 (by decide) ⟨0, 100, (), 0, by simp⟩ hok
  exact ⟨p, p', ret, hr, hret⟩

/-- Two timers of one bucket: the first one's callback cancels the second, and `Update` goes on with a deleted map. -/
theorem cancel_last_in_bucket : ∃ p : TimerPool Unit, ∃ u,
    Run Step (fun _ _ _ => True) newPool
      [.addTimer 0 100 () 0 4294967297, .addTimer 0 150 () 1 4294967298, .update 120, .next .nothing, .next .nothing,
        .next (.callback 0 ()), .cancelTimer 4294967298 0, .next .nothing] p ∧
      p.updating = some u ∧ p.updateNext u = .error .useAfterFree := by
  have h : ((newPool.replay
      [.addTimer 0 100 () 0 4294967297, .addTimer 0 150 () 1 4294967298, .update 120, .next .nothing, .next .nothing,
        .next (.callback 0 ()), .cancelTimer 4294967298 0, .next .nothing]).bind fun p => p.updating.bind fun u =>
      match p.updateNext u with
        | .error .useAfterFree => some ()
        | _ => none) = some () := by decide
  obtain ⟨p, hp, h⟩ := Option.bind_eq_some_iff.mp h
  obtain ⟨u, hu, h⟩ := Option.bind_eq_some_iff.mp h
  refine ⟨p, u, replay_run (C := fun _ _ => True) _ hp fun _ _ => trivial, hu, ?_⟩
  split at h
  · assumption
  · cases h

end TimerPool

end GlobalServer
