import GlobalServer.Base.TimePoolHeap
import Mathlib.Data.List.Nodup

/-!
# The wheel's invariant

A timer is pending while its node is in the wheel, or taken out by the
`Update` under way and not called yet (`Pending`). Each operation keeps every
node in its one place (`Wheel`) and changes the pending timers by the one it
adds, cancels or calls. No operation touches a deleted map or node, unless
`CancelTimer` empties the map that `Update` is in the middle of.
-/

namespace GlobalServer

open Bytes

namespace TimerPool

variable {γ : Type}

/-- The nodes taken out whose callbacks are still to come. -/
def queued (p : TimerPool γ) : List Nat :=
  match p.updating with
  | none => []
  | some u => match u.pc with
    | .bucket => []
    | .nodelist _ nodes => nodes
    | .callback _ _ nodes => nodes

/-- The nodes taken out and not deallocated. -/
def detached (p : TimerPool γ) : List Nat :=
  match p.updating with
  | none => []
  | some u => match u.pc with
    | .bucket => []
    | .nodelist _ nodes => nodes
    | .callback _ node nodes => node :: nodes

theorem queued_none {p : TimerPool γ} (hu : p.updating = none) : p.queued = [] := by unfold queued; rw [hu]

theorem detached_none {p : TimerPool γ} (hu : p.updating = none) : p.detached = [] := by unfold detached; rw [hu]

section
variable {p : TimerPool γ} {u : Updating} (hu : p.updating = some u)
include hu

theorem queued_bucket (hpc : u.pc = .bucket) : p.queued = [] := by
  simp only [queued, hu, hpc]

theorem queued_nodelist {pmap : Nat} {nodes : List Nat} (hpc : u.pc = .nodelist pmap nodes) : p.queued = nodes := by
  simp only [queued, hu, hpc]

theorem queued_callback {pmap node : Nat} {nodes : List Nat} (hpc : u.pc = .callback pmap node nodes) :
    p.queued = nodes := by
  simp only [queued, hu, hpc]

theorem detached_nodelist {pmap : Nat} {nodes : List Nat} (hpc : u.pc = .nodelist pmap nodes) :
    p.detached = nodes := by
  simp only [detached, hu, hpc]

theorem detached_callback {pmap node : Nat} {nodes : List Nat} (hpc : u.pc = .callback pmap node nodes) :
    p.detached = node :: nodes := by
  simp only [detached, hu, hpc]

end

theorem queued_subset (p : TimerPool γ) : ∀ n ∈ p.queued, n ∈ p.detached := by
  unfold queued detached
  cases p.updating with
  | none => simp
  | some u =>
    simp only
    cases u.pc with
    | bucket => simp
    | nodelist m ns => simp
    | callback m n ns => intro x hx; exact List.mem_cons_of_mem _ hx

def InWheel (p : TimerPool γ) (n : Nat) : Prop := ∃ i k, (k, n) ∈ p.entries i

def Pending (p : TimerPool γ) (n : Nat) : Prop := p.InWheel n ∨ n ∈ p.queued

/-- The nodes are where the wheel says they are. -/
structure Wheel (p : TimerPool γ) : Prop extends Heap p where
  sorted : ∀ i, OrdMap.Sorted (p.entries i)
  entry : ∀ i e, e ∈ p.entries i → ∃ nd, p.nodes e.2 = some nd ∧ nd.expire = e.1 ∧ highWord nd.timerId = i
  top : ∀ n nd, p.nodes n = some nd → n < p.nodeTop
  alive : ∀ n ∈ p.detached, ∃ nd, p.nodes n = some nd
  nodup : p.detached.Nodup
  apart : ∀ n ∈ p.detached, ¬ p.InWheel n
  counter : 1 ≤ p.curTimerId ∧ p.curTimerId ≤ 0xFFFFFFFE

theorem Wheel.node {p : TimerPool γ} (h : Wheel p) {n : Nat} (hn : p.Pending n) : ∃ nd, p.nodes n = some nd := by
  rcases hn with ⟨i, k, hk⟩ | hn
  · obtain ⟨nd, hnd, -⟩ := h.entry i _ hk
    exact ⟨nd, hnd⟩
  · exact h.alive n (p.queued_subset n hn)

theorem Wheel.place {p : TimerPool γ} (h : Wheel p) {i j : Int} {k l : Int} {n : Nat} (hi : (k, n) ∈ p.entries i)
    (hj : (l, n) ∈ p.entries j) : i = j ∧ k = l := by
  obtain ⟨nd, h1, h2, h3⟩ := h.entry i _ hi
  obtain ⟨nd', h1', h2', h3'⟩ := h.entry j _ hj
  have e : nd = nd' := Option.some.inj (h1.symm.trans h1')
  subst e
  exact ⟨h3.symm.trans h3', h2.symm.trans h2'⟩

theorem Wheel.nextTimerId_lt {p : TimerPool γ} (h : Wheel p) : 1 ≤ p.nextTimerId ∧ p.nextTimerId < 0xFFFFFFFE := by
  have := h.counter
  unfold nextTimerId
  split <;> omega

theorem highWord_timerIdAt {p : TimerPool γ} (h : Wheel p) {idx : Int} (h0 : 0 ≤ idx) (h1 : idx < bigBucketCnt * 10) :
    highWord (p.timerIdAt idx) = idx := by
  have := h.nextTimerId_lt
  unfold bigBucketCnt at h1
  unfold highWord timerIdAt
  rw [i32_of_range] <;> omega

/-! ## What `AddTimer` is asked for -/

/-- No timer in the wheel has the new one's expiry and no pending one its id. -/
structure AddOk (p : TimerPool γ) (now interval : Int) : Prop where
  expire : ∀ i e, e ∈ p.entries i → e.1 ≠ now + interval
  id : ∀ n nd, p.Pending n → p.nodes n = some nd →
    nd.timerId ≠ p.timerIdAt ((p.calcBucket now interval).1 * 10 + (p.calcBucket now interval).2)

section
variable {p p' : TimerPool γ} {idx expire : Int} {func : γ}

theorem Wheel.fresh (h : Wheel p) : ¬ p.InWheel p.nodeTop ∧ p.nodeTop ∉ p.detached := by
  constructor
  · rintro ⟨i, k, hk⟩
    obtain ⟨nd, hnd, -⟩ := h.entry i _ hk
    exact Nat.lt_irrefl _ (h.top _ nd hnd)
  · intro hd
    obtain ⟨nd, hnd⟩ := h.alive _ hd
    exact Nat.lt_irrefl _ (h.top _ nd hnd)

theorem Added.mem (ha : Added p p' idx expire func) (he : ∀ i e, e ∈ p.entries i → e.1 ≠ expire) {j : Int}
    {e : Int × Nat} : e ∈ p'.entries j ↔ e ∈ p.entries j ∨ (j = idx ∧ e = (expire, p.nodeTop)) := by
  rw [ha.entries]
  by_cases hj : j = idx
  · subst hj
    rw [if_pos rfl, OrdMap.mem_insert_of_absent (he j)]
    simp [or_comm]
  · simp [hj]

theorem Added.inWheel (ha : Added p p' idx expire func) (he : ∀ i e, e ∈ p.entries i → e.1 ≠ expire) {n : Nat} :
    p'.InWheel n ↔ p.InWheel n ∨ n = p.nodeTop := by
  constructor
  · rintro ⟨i, k, hk⟩
    rcases (ha.mem he).mp hk with hk | ⟨-, hk⟩
    · exact Or.inl ⟨i, k, hk⟩
    · exact Or.inr (Prod.mk.inj hk).2
  · rintro (⟨i, k, hk⟩ | rfl)
    · exact ⟨i, k, (ha.mem he).mpr (Or.inl hk)⟩
    · exact ⟨idx, expire, (ha.mem he).mpr (Or.inr ⟨rfl, rfl⟩)⟩

theorem queued_congr (hu : p'.updating = p.updating) : p'.queued = p.queued := by unfold queued; rw [hu]

theorem detached_congr (hu : p'.updating = p.updating) : p'.detached = p.detached := by unfold detached; rw [hu]

theorem Added.pending (ha : Added p p' idx expire func) (he : ∀ i e, e ∈ p.entries i → e.1 ≠ expire) {n : Nat} :
    p'.Pending n ↔ p.Pending n ∨ n = p.nodeTop := by
  unfold Pending
  rw [ha.inWheel he, queued_congr ha.updating]
  tauto

theorem Added.mem_back (h : Wheel p) (ha : Added p p' idx expire func) {j : Int} {e : Int × Nat}
    (he : e ∈ p'.entries j) :
    e ∈ p.entries j ∨ (j = idx ∧ e = (expire, p.nodeTop)) := by
  rw [ha.entries] at he
  by_cases hj : j = idx
  · subst hj
    rw [if_pos rfl] at he
    rcases OrdMap.mem_of_insert (h.sorted j) he with he | he
    · exact Or.inr ⟨rfl, he⟩
    · exact Or.inl he
  · rw [if_neg hj] at he
    exact Or.inl he

theorem Added.pending_back (h : Wheel p) (ha : Added p p' idx expire func) {n : Nat} (hn : p'.Pending n) :
    p.Pending n ∨ n = p.nodeTop := by
  rcases hn with ⟨j, k, hk⟩ | hn
  · rcases ha.mem_back h hk with hk | ⟨-, hk⟩
    · exact Or.inl (Or.inl ⟨j, k, hk⟩)
    · exact Or.inr (Prod.mk.inj hk).2
  · rw [queued_congr ha.updating] at hn
    exact Or.inl (Or.inr hn)

theorem Added.wheel (h : Wheel p) (ha : Added p p' idx expire func) (hr : 0 ≤ idx ∧ idx < bigBucketCnt * 10) :
    Wheel p' where
  toHeap := ha.heap
  sorted i := by
    rw [ha.entries]
    split
    · exact OrdMap.sorted_insert (h.sorted idx)
    · exact h.sorted i
  entry i e hm := by
    rw [ha.nodes]
    rcases ha.mem_back h hm with hm | ⟨rfl, rfl⟩
    · have hne : e.2 ≠ p.nodeTop := fun hn => h.fresh.1 ⟨i, e.1, hn ▸ hm⟩
      rw [Function.update_of_ne hne]
      exact h.entry i e hm
    · exact ⟨_, Function.update_self .., rfl, highWord_timerIdAt h hr.1 hr.2⟩
  top n nd hn := by
    rw [ha.nodeTop]
    rw [ha.nodes] at hn
    by_cases hnt : n = p.nodeTop
    · omega
    · rw [Function.update_of_ne hnt] at hn
      have := h.top n nd hn; omega
  alive n hn := by
    rw [detached_congr ha.updating] at hn
    have hne : n ≠ p.nodeTop := fun e => h.fresh.2 (e ▸ hn)
    rw [ha.nodes, Function.update_of_ne hne]
    exact h.alive n hn
  nodup := by rw [detached_congr ha.updating]; exact h.nodup
  apart n hn := by
    rw [detached_congr ha.updating] at hn
    rintro ⟨j, k, hk⟩
    rcases ha.mem_back h hk with hk | ⟨-, hk⟩
    · exact h.apart n hn ⟨j, k, hk⟩
    · exact h.fresh.2 ((Prod.mk.inj hk).2 ▸ hn)
  counter := by
    have := h.nextTimerId_lt
    rw [ha.curTimerId]; omega

end

/-! ## What `CancelTimer` does to the wheel -/

section
variable {p p' : TimerPool γ} {idx : Int} {e : Int × Nat}

theorem Removed.mem (h : Wheel p) (hr : Removed p p' idx e) (he : e ∈ p.entries idx) {j : Int} {x : Int × Nat} :
    x ∈ p'.entries j ↔ x ∈ p.entries j ∧ x.2 ≠ e.2 := by
  have hnd : (p.entries idx).Nodup := (h.sorted idx).imp fun hlt => fun hxy => by rw [hxy] at hlt; exact lt_irrefl _ hlt
  have same : ∀ {j x}, x ∈ p.entries j → x.2 = e.2 → j = idx ∧ x = e := by
    intro j x hx hxe
    obtain ⟨h1, h2⟩ := h.place (i := j) (j := idx) (k := x.1) (l := e.1) (n := e.2) (hxe ▸ hx) he
    exact ⟨h1, Prod.ext h2 hxe⟩
  rw [hr.entries]
  by_cases hj : j = idx
  · subst hj
    rw [if_pos rfl, hnd.mem_erase_iff]
    constructor
    · rintro ⟨hne, hx⟩
      exact ⟨hx, fun hxe => hne (same hx hxe).2⟩
    · rintro ⟨hx, hne⟩
      exact ⟨fun hxe => hne (hxe ▸ rfl), hx⟩
  · rw [if_neg hj]
    exact ⟨fun hx => ⟨hx, fun hxe => hj (same hx hxe).1⟩, fun hx => hx.1⟩

theorem Removed.inWheel (h : Wheel p) (hr : Removed p p' idx e) (he : e ∈ p.entries idx) {n : Nat} :
    p'.InWheel n ↔ p.InWheel n ∧ n ≠ e.2 := by
  constructor
  · rintro ⟨i, k, hk⟩
    obtain ⟨hk, hne⟩ := (hr.mem h he).mp hk
    exact ⟨⟨i, k, hk⟩, hne⟩
  · rintro ⟨⟨i, k, hk⟩, hne⟩
    exact ⟨i, k, (hr.mem h he).mpr ⟨hk, hne⟩⟩

theorem Removed.pending (h : Wheel p) (hr : Removed p p' idx e) (he : e ∈ p.entries idx) {n : Nat} :
    p'.Pending n ↔ p.Pending n ∧ n ≠ e.2 := by
  have hq : n ∈ p.queued → n ≠ e.2 := fun hn hne =>
    h.apart n (p.queued_subset n hn) ⟨idx, e.1, hne ▸ he⟩
  unfold Pending
  rw [hr.inWheel h he, queued_congr hr.updating]
  tauto

theorem Removed.wheel (h : Wheel p) (hr : Removed p p' idx e) (he : e ∈ p.entries idx) : Wheel p' where
  toHeap := hr.heap
  sorted i := by
    rw [hr.entries]
    split
    · exact List.Pairwise.sublist List.erase_sublist (h.sorted idx)
    · exact h.sorted i
  entry i x hx := by
    obtain ⟨hx, hne⟩ := (hr.mem h he).mp hx
    rw [hr.nodes, Function.update_of_ne hne]
    exact h.entry i x hx
  top n nd hn := by
    rw [hr.nodeTop]
    rw [hr.nodes] at hn
    by_cases hne : n = e.2
    · rw [hne, Function.update_self] at hn; cases hn
    · rw [Function.update_of_ne hne] at hn; exact h.top n nd hn
  alive n hn := by
    rw [detached_congr hr.updating] at hn
    have hne : n ≠ e.2 := fun hne => h.apart n hn ⟨idx, e.1, hne ▸ he⟩
    rw [hr.nodes, Function.update_of_ne hne]
    exact h.alive n hn
  nodup := by rw [detached_congr hr.updating]; exact h.nodup
  apart n hn := by
    rw [detached_congr hr.updating] at hn
    rw [hr.inWheel h he]
    exact fun hw => h.apart n hn hw.1
  counter := by rw [hr.curTimerId]; exact h.counter

end

/-! ## What `Update` does to the wheel -/

theorem mem_kept {now : Int} {l : TimeNodeMap} {e : Int × Nat} : e ∈ (takeDue now l).1 ↔ e ∈ l ∧ now < e.1 := by
  simp [takeDue]

theorem mem_due {now : Int} {l : TimeNodeMap} {n : Nat} : n ∈ (takeDue now l).2 ↔ ∃ k, (k, n) ∈ l ∧ k ≤ now := by
  simp [takeDue]

theorem nodup_due {p : TimerPool γ} (h : Wheel p) (now : Int) (i : Int) : (takeDue now (p.entries i)).2.Nodup := by
  refine List.Nodup.map_on ?_ ?_
  · intro x hx y hy hxy
    have hx' : (x.1, x.2) ∈ p.entries i := (List.mem_filter.mp hx).1
    have hy' : (y.1, y.2) ∈ p.entries i := (List.mem_filter.mp hy).1
    rw [hxy] at hx'
    exact Prod.ext (h.place hx' hy').2 hxy
  · refine List.Nodup.filter _ ?_
    exact (h.sorted i).imp fun hlt => fun hxy => by rw [hxy] at hlt; exact lt_irrefl _ hlt

theorem queued_goto (p : TimerPool γ) (u : Updating) (pc : UpdatePc) :
    (p.goto u pc).queued = (match pc with | .bucket => [] | .nodelist _ ns => ns | .callback _ _ ns => ns) := rfl

theorem detached_goto (p : TimerPool γ) (u : Updating) (pc : UpdatePc) :
    (p.goto u pc).detached = (match pc with | .bucket => [] | .nodelist _ ns => ns | .callback _ n ns => n :: ns) := rfl

theorem inWheel_congr {p p' : TimerPool γ} (he : p'.entries = p.entries) {n : Nat} : p'.InWheel n ↔ p.InWheel n := by
  unfold InWheel; rw [he]

theorem wheel_congr {p p' : TimerPool γ} (h : Wheel p) (hh : Heap p') (he : p'.entries = p.entries)
    (hn : ∀ n ∈ p'.detached, p'.nodes n = p.nodes n) (hw : ∀ n, p.InWheel n → p'.nodes n = p.nodes n)
    (hle : ∀ n nd, p'.nodes n = some nd → p.nodes n = some nd) (ht : p'.nodeTop = p.nodeTop)
    (hc : p'.curTimerId = p.curTimerId) (hd : p'.detached.Sublist p.detached) : Wheel p' where
  toHeap := hh
  sorted i := by rw [he]; exact h.sorted i
  entry i e hm := by
    rw [he] at hm
    rw [hw e.2 ⟨i, e.1, hm⟩]
    exact h.entry i e hm
  top n nd hnd := by rw [ht]; exact h.top n nd (hle n nd hnd)
  alive n hm := by
    rw [hn n hm]
    exact h.alive n (hd.subset hm)
  nodup := h.nodup.sublist hd
  apart n hm := by
    rw [inWheel_congr he]
    exact h.apart n (hd.subset hm)
  counter := by rw [hc]; exact h.counter

theorem wheel_begin {p : TimerPool γ} (h : Wheel p) (hu : p.updating = none) (now : Int) :
    Wheel (p.beginUpdate now) := by
  have hh : Heap (p.beginUpdate now) := heap_congr h.toHeap rfl rfl rfl fun i n hn => by cases hn
  exact wheel_congr h hh (entries_congr rfl rfl) (fun _ _ => rfl) (fun _ _ => rfl) (fun _ _ hn => hn) rfl rfl
    (by rw [detached_none hu]; exact List.Sublist.refl _)

theorem pending_begin {p : TimerPool γ} (hu : p.updating = none) {now : Int} {n : Nat} :
    (p.beginUpdate now).Pending n ↔ p.Pending n := by
  have hq' : (p.beginUpdate now).queued = [] := rfl
  unfold Pending
  rw [queued_none hu, hq']
  exact or_congr_left (inWheel_congr (entries_congr rfl rfl))

section
variable {p p' : TimerPool γ} {u : Updating} {shown : Shown γ} (h : Wheel p) (hu : p.updating = some u)
include h hu

theorem wheel_tick (ht : Tick p u p' shown) : Wheel p' := by
  have hh := heap_tick h.toHeap hu ht
  cases ht with
  | done hpc =>
    exact wheel_congr h hh (entries_congr rfl rfl) (fun _ _ => rfl) (fun _ _ => rfl) (fun _ _ hn => hn) rfl rfl
      (List.nil_sublist _)
  | pass hpc =>
    exact wheel_congr h hh (entries_congr rfl rfl) (fun _ _ => rfl) (fun _ _ => rfl) (fun _ _ hn => hn) rfl rfl
      (List.nil_sublist _)
  | @take pmap hpc hle hb =>
    have hE := entries_take h.toHeap hb (takeDue u.now (p.entries u.sIdx)).1
      (.nodelist pmap (takeDue u.now (p.entries u.sIdx)).2)
    have sub : ∀ j e, e ∈ ((p.setMap pmap (takeDue u.now (p.entries u.sIdx)).1).goto u
        (.nodelist pmap (takeDue u.now (p.entries u.sIdx)).2)).entries j → e ∈ p.entries j ∧
        (j = u.sIdx → u.now < e.1) := by
      intro j e he
      rw [hE] at he
      split at he
      · rename_i hj
        obtain ⟨h1, h2⟩ := mem_kept.mp he
        exact ⟨hj ▸ h1, fun _ => h2⟩
      · rename_i hj
        exact ⟨he, fun e => absurd e hj⟩
    refine ⟨hh, fun i => ?_, fun i e he => h.entry i e (sub i e he).1, h.top, fun n hn => ?_, nodup_due h _ _,
      fun n hn hw => ?_, h.counter⟩
    · rw [hE]
      split
      · exact List.Pairwise.filter _ (h.sorted _)
      · exact h.sorted i
    · obtain ⟨k, hk, -⟩ := mem_due.mp hn
      obtain ⟨nd, hnd, -⟩ := h.entry _ _ hk
      exact ⟨nd, hnd⟩
    · obtain ⟨k, hk, hle⟩ := mem_due.mp hn
      obtain ⟨i, k', hk'⟩ := hw
      obtain ⟨hm, hlt⟩ := sub i _ hk'
      obtain ⟨hi, hkk⟩ := h.place hm hk
      have := hlt hi
      omega
  | close hpc =>
    refine wheel_congr h hh (entries_close h.toHeap (held_nodelist h.toHeap hu hpc)) ?_ ?_ ?_ ?_ ?_ (List.nil_sublist _)
    · intro n hn; cases hn
    all_goals split <;> intros <;> first | rfl | assumption
  | call hpc hnd =>
    refine wheel_congr h hh (entries_congr rfl rfl) (fun _ _ => rfl) (fun _ _ => rfl) (fun _ _ hn => hn) rfl rfl ?_
    rw [detached_goto, detached_nodelist hu hpc]
  | @ret pmap node nodes hpc =>
    have hd := detached_callback hu hpc
    have hnd := h.nodup
    rw [hd] at hnd
    have hne : ∀ n, n ≠ node → ((p.dealloc node).goto u (.nodelist pmap nodes)).nodes n = p.nodes n :=
      fun n hn => Function.update_of_ne hn ..
    refine wheel_congr h hh (entries_congr rfl rfl) ?_ ?_ ?_ rfl rfl ?_
    · intro n hn
      exact hne n fun e => (List.nodup_cons.mp hnd).1 (e ▸ hn)
    · intro n hw
      exact hne n fun e => h.apart n (by rw [hd, e]; exact List.mem_cons_self) hw
    · intro n nd hn
      by_cases hnn : n = node
      · have : ((p.dealloc node).goto u (.nodelist pmap nodes)).nodes n = none := by
          rw [hnn]; exact Function.update_self ..
        rw [this] at hn; cases hn
      · rwa [hne n hnn] at hn
    · rw [detached_goto, hd]
      exact List.sublist_cons_self _ _

/-- A step of `Update` leaves the pending timers as they are but for the one whose callback it calls. -/
theorem pending_tick (ht : Tick p u p' shown) {n : Nat} :
    p'.Pending n ↔ p.Pending n ∧ ∀ cb, shown ≠ .callback n cb := by
  have same : p'.entries = p.entries → p'.queued = p.queued → (∀ cb, shown ≠ .callback n cb) →
      (p'.Pending n ↔ p.Pending n ∧ ∀ cb, shown ≠ .callback n cb) := by
    intro he hq hs
    unfold Pending
    rw [inWheel_congr he, hq]
    exact ⟨fun hn => ⟨hn, hs⟩, fun hn => hn.1⟩
  cases ht with
  | done hpc => exact same (entries_congr rfl rfl) (queued_bucket hu hpc).symm (fun _ e => by cases e)
  | pass hpc => exact same (entries_congr rfl rfl) (queued_bucket hu hpc).symm (fun _ e => by cases e)
  | @take pmap hpc hle hb =>
    have hE := entries_take h.toHeap hb (takeDue u.now (p.entries u.sIdx)).1
      (.nodelist pmap (takeDue u.now (p.entries u.sIdx)).2)
    unfold Pending
    rw [queued_goto, queued_bucket hu hpc]
    simp only [List.not_mem_nil, or_false, ne_eq, reduceCtorEq, not_false_eq_true, implies_true, and_true]
    constructor
    · rintro (⟨i, k, hk⟩ | hn)
      · rw [hE] at hk
        split at hk
        · exact ⟨u.sIdx, k, (mem_kept.mp hk).1⟩
        · exact ⟨i, k, hk⟩
      · obtain ⟨k, hk, -⟩ := mem_due.mp hn
        exact ⟨u.sIdx, k, hk⟩
    · rintro ⟨i, k, hk⟩
      by_cases hi : i = u.sIdx
      · subst hi
        rcases Int.lt_or_le u.now k with hlt | hle'
        · exact Or.inl ⟨u.sIdx, k, by rw [hE, if_pos rfl]; exact mem_kept.mpr ⟨hk, hlt⟩⟩
        · exact Or.inr (mem_due.mpr ⟨k, hk, hle'⟩)
      · exact Or.inl ⟨i, k, by rw [hE, if_neg hi]; exact hk⟩
  | close hpc =>
    exact same (entries_close h.toHeap (held_nodelist h.toHeap hu hpc)) (queued_nodelist hu hpc).symm
      (fun _ e => by cases e)
  | @call pmap node nodes nd hpc hnd =>
    have hq := queued_nodelist hu hpc
    have hd := detached_nodelist hu hpc
    have hnod := h.nodup
    rw [hd] at hnod
    have hin : (p.goto u (.callback pmap node nodes)).InWheel n ↔ p.InWheel n := inWheel_congr (entries_congr rfl rfl)
    unfold Pending
    rw [hin, queued_goto, hq]
    simp only [List.mem_cons, ne_eq, Shown.callback.injEq, not_and]
    constructor
    · rintro (hw | hn)
      · exact ⟨Or.inl hw, fun _ e => absurd hw (h.apart n (by rw [hd, e]; exact List.mem_cons_self))⟩
      · exact ⟨Or.inr (Or.inr hn), fun _ e => absurd (e ▸ hn) (List.nodup_cons.mp hnod).1⟩
    · rintro ⟨hw | rfl | hn, hne⟩
      · exact Or.inl hw
      · exact absurd rfl (hne nd.cb rfl)
      · exact Or.inr hn
  | ret hpc => exact same (entries_congr rfl rfl) (queued_callback hu hpc).symm (fun _ e => by cases e)

end

theorem nodes_tick {p p' : TimerPool γ} {u : Updating} {shown : Shown γ} (ht : Tick p u p' shown) {n : Nat}
    {nd : TimeNode γ} (hn : p'.nodes n = some nd) : p.nodes n = some nd := by
  cases ht with
  | ret hpc =>
    rename_i pmap node nodes
    have hn' : Function.update p.nodes node none n = some nd := hn
    by_cases hnn : n = node
    · rw [hnn, Function.update_self] at hn'; cases hn'
    · rwa [Function.update_of_ne hnn] at hn'
  | close hpc => split at hn <;> exact hn
  | _ => exact hn

/-- The timers that the `Update` under way has taken out are due. -/
def Due (p : TimerPool γ) : Prop :=
  ∀ u, p.updating = some u → ∀ n ∈ p.detached, ∀ nd, p.nodes n = some nd → nd.expire ≤ u.now

theorem due_tick {p p' : TimerPool γ} {u : Updating} {shown : Shown γ} (h : Wheel p) (hd : Due p)
    (hu : p.updating = some u)
    (ht : Tick p u p' shown) : Due p' := by
  have taken : ∀ n ∈ p.detached, ∀ nd, p.nodes n = some nd → nd.expire ≤ u.now := hd u hu
  intro u' hu' n hn nd hnd
  have hnd' := nodes_tick ht hnd
  cases ht with
  | done hpc => cases hu'
  | pass hpc =>
    cases hu'
    cases hn
  | @take pmap hpc hle hb =>
    cases hu'
    obtain ⟨k, hk, hle'⟩ := mem_due.mp hn
    obtain ⟨nd', hnd'', hexp, -⟩ := h.entry _ _ hk
    obtain rfl := Option.some.inj (hnd'.symm.trans hnd'')
    rwa [hexp]
  | close hpc =>
    cases hu'
    cases hn
  | call hpc hnode =>
    cases hu'
    rw [detached_goto] at hn
    exact taken n (by rw [detached_nodelist hu hpc]; exact hn) nd hnd'
  | ret hpc =>
    cases hu'
    rw [detached_goto] at hn
    exact taken n (by rw [detached_callback hu hpc]; exact List.mem_cons_of_mem _ hn) nd hnd'

/-! ## No use after free -/

theorem slot_cases (p : TimerPool γ) (big small : Int) :
    p.slot big small = .ok (p.bucket (big * 10 + small)) ∨ p.slot big small = .error .outOfBounds := by
  unfold slot
  split
  · exact Or.inl rfl
  · exact Or.inr rfl

theorem addTimer_cases {p : TimerPool γ} (h : Heap p) (now interval : Int) (func : γ) :
    (∃ r, p.addTimer now interval func = .ok r) ∨ p.addTimer now interval func = .error .outOfBounds := by
  unfold addTimer
  split
  · exact Or.inl ⟨_, rfl⟩
  · split
    · exact Or.inl ⟨_, rfl⟩
    · simp only
      rcases slot_cases p (p.calcBucket now interval).1 (p.calcBucket now interval).2 with hs | hs
      · obtain ⟨-, hr⟩ := slot_eq_ok hs
        obtain ⟨hq, hqb, -, -⟩ := bucketMap_spec h hr
        rw [hs, Except.ok_bind, readMap_of_bucket hq hqb]
        exact Or.inl ⟨_, rfl⟩
      · rw [hs]; exact Or.inr rfl

theorem findTimer_ok {p : TimerPool γ} (id : Nat) : ∀ {l : TimeNodeMap}, (∀ e ∈ l, ∃ nd, p.nodes e.2 = some nd) →
    ∃ r, p.findTimer id l = .ok r
  | [], _ => ⟨none, rfl⟩
  | e :: l, h => by
    obtain ⟨nd, hnd⟩ := h e (by simp)
    obtain ⟨r, hr⟩ := findTimer_ok id fun x hx => h x (List.mem_cons_of_mem e hx)
    unfold findTimer readNode
    rw [hnd]
    simp only [Except.ok_bind]
    split
    · exact ⟨_, rfl⟩
    · exact ⟨r, hr⟩

theorem cancelTimer_cases {p : TimerPool γ} (h : Wheel p) (id : Nat) :
    (∃ r, p.cancelTimer id = .ok r) ∨ p.cancelTimer id = .error .outOfBounds ∧
      ¬ (0 ≤ highWord id ∧ highWord id < bigBucketCnt * 10) := by
  unfold cancelTimer
  simp only
  cases hpp : p.slot ((highWord id).tdiv 10) ((highWord id).tmod 10) with
  | error f =>
    refine Or.inr ?_
    unfold slot at hpp
    split at hpp
    · cases hpp
    · rename_i hr
      cases hpp
      refine ⟨rfl, fun hw => hr ?_⟩
      have h1 := Int.tdiv_mul_add_tmod (highWord id) 10
      have h2 := Int.tmod_nonneg 10 hw.1
      have h3 := Int.tmod_lt_of_pos (highWord id) (by decide : (0 : Int) < 10)
      unfold bigBucketCnt smallBucketCnt at *
      omega
  | ok pp =>
    obtain ⟨rfl, -⟩ := slot_eq_ok hpp
    rw [Int.tdiv_mul_add_tmod]
    refine Or.inl ?_
    rw [Except.ok_bind]
    cases hb : p.bucket (highWord id) with
    | none => exact ⟨_, rfl⟩
    | some m =>
      simp only
      rw [readMap_of_bucket h.toHeap hb, Except.ok_bind]
      obtain ⟨r, hr⟩ := findTimer_ok (p := p) id (l := p.entries (highWord id)) fun e he => by
        obtain ⟨nd, hnd, -⟩ := h.entry _ e he
        exact ⟨nd, hnd⟩
      rw [hr, Except.ok_bind]
      cases r <;> exact ⟨_, rfl⟩

theorem updateNext_cases {p : TimerPool γ} (h : Wheel p) {u : Updating} (hu : p.updating = some u) :
    (∃ r, p.updateNext u = .ok r) ∨ p.updateNext u = .error .outOfBounds := by
  unfold updateNext
  split
  · split
    · exact Or.inl ⟨_, rfl⟩
    · rcases slot_cases p (u.sIdx.tdiv 10) (u.sIdx.tmod 10) with hs | hs
      · rw [hs, Int.tdiv_mul_add_tmod, Except.ok_bind]
        cases hb : p.bucket u.sIdx with
        | none => exact Or.inl ⟨_, rfl⟩
        | some m =>
          simp only
          rw [readMap_of_bucket h.toHeap hb]
          exact Or.inl ⟨_, rfl⟩
      · rw [hs]; exact Or.inr rfl
  · rename_i pmap hpc
    rw [readMap_of_bucket h.toHeap (held_nodelist h.toHeap hu hpc)]
    exact Or.inl ⟨_, rfl⟩
  · rename_i pmap node nodes hpc
    obtain ⟨nd, hnd⟩ := h.alive node (by simp [detached_nodelist hu hpc])
    unfold readNode
    rw [hnd]
    exact Or.inl ⟨_, rfl⟩
  · rename_i pmap node nodes hpc
    obtain ⟨nd, hnd⟩ := h.alive node (by simp [detached_callback hu hpc])
    unfold readNode
    rw [hnd]
    exact Or.inl ⟨_, rfl⟩

end TimerPool

end GlobalServer
