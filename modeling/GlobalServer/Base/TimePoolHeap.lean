import GlobalServer.Base.TimePool

/-!
# The wheel's heap

Each bucket's map is its own and alive, and an `Update` in the middle of a
bucket still has that bucket's map. Under this (`Heap`) the wheel is a
function from buckets to maps (`entries`), and each operation changes it in
one bucket.
-/

namespace GlobalServer

open Bytes

namespace TimerPool

variable {γ : Type}

/-- The map `Update` holds a pointer to. -/
def heldMap (p : TimerPool γ) : Option (Int × Nat) :=
  p.updating.bind fun u => match u.pc with
    | .bucket => none
    | .nodelist pmap _ => some (u.sIdx, pmap)
    | .callback pmap _ _ => some (u.sIdx, pmap)

structure Heap (p : TimerPool γ) : Prop where
  live : ∀ i m, p.bucket i = some m → ∃ l, p.maps m = some l
  inj : ∀ i j m, p.bucket i = some m → p.bucket j = some m → i = j
  below : ∀ m l, p.maps m = some l → m < p.mapTop
  range : ∀ i m, p.bucket i = some m → 0 ≤ i ∧ i < bigBucketCnt * 10
  held : ∀ i m, p.heldMap = some (i, m) → p.bucket i = some m

def entries (p : TimerPool γ) (i : Int) : TimeNodeMap := ((p.bucket i).bind p.maps).getD []

theorem entries_none {p : TimerPool γ} {i : Int} (h : p.bucket i = none) : p.entries i = [] := by
  rw [entries, h]; rfl

theorem entries_some {p : TimerPool γ} {i : Int} {m : Nat} {l : TimeNodeMap} (h : p.bucket i = some m)
    (hm : p.maps m = some l) : p.entries i = l := by
  rw [entries, h, Option.bind_some, hm]; rfl

theorem readMap_of_bucket {p : TimerPool γ} (h : Heap p) {i : Int} {m : Nat} (hb : p.bucket i = some m) :
    p.readMap m = .ok (p.entries i) := by
  obtain ⟨l, hl⟩ := h.live i m hb
  rw [readMap, hl, entries_some hb hl]

theorem entries_update {p q : TimerPool γ} (h : Heap p) {i : Int} {m : Nat} {l : TimeNodeMap}
    (hi : p.bucket i = some m)
    (hb : q.bucket = p.bucket) (hm : q.maps = Function.update p.maps m (some l)) (j : Int) :
    q.entries j = if j = i then l else p.entries j := by
  unfold entries
  rw [hb, hm]
  by_cases hj : j = i
  · subst hj
    rw [if_pos rfl, hi, Option.bind_some, Function.update_self]; rfl
  · rw [if_neg hj]
    cases hbj : p.bucket j with
    | none => rfl
    | some m' =>
      have hne : m' ≠ m := fun e => hj (h.inj j i m (e ▸ hbj) hi)
      rw [Option.bind_some, Option.bind_some, Function.update_of_ne hne]

theorem heap_update {p q : TimerPool γ} (h : Heap p) {m : Nat} {l l' : TimeNodeMap} (hl : p.maps m = some l)
    (hb : q.bucket = p.bucket) (hm : q.maps = Function.update p.maps m (some l')) (ht : q.mapTop = p.mapTop)
    (hh : ∀ i n, q.heldMap = some (i, n) → p.bucket i = some n) : Heap q where
  live i n hn := by
    rw [hb] at hn
    rw [hm]
    by_cases hnm : n = m
    · exact ⟨l', by rw [hnm, Function.update_self]⟩
    · rw [Function.update_of_ne hnm]; exact h.live i n hn
  inj i j n hi hj := by rw [hb] at hi hj; exact h.inj i j n hi hj
  below n l₂ hn := by
    rw [ht]
    rw [hm] at hn
    by_cases hnm : n = m
    · rw [hnm]; exact h.below m l hl
    · rw [Function.update_of_ne hnm] at hn; exact h.below n l₂ hn
  range i n hn := by rw [hb] at hn; exact h.range i n hn
  held i n hn := by rw [hb]; exact hh i n hn

theorem heap_congr {p q : TimerPool γ} (h : Heap p) (hb : q.bucket = p.bucket) (hm : q.maps = p.maps)
    (ht : q.mapTop = p.mapTop) (hh : ∀ i n, q.heldMap = some (i, n) → p.bucket i = some n) : Heap q where
  live i n hn := by rw [hb] at hn; rw [hm]; exact h.live i n hn
  inj i j n hi hj := by rw [hb] at hi hj; exact h.inj i j n hi hj
  below n l hn := by rw [hm] at hn; rw [ht]; exact h.below n l hn
  range i n hn := by rw [hb] at hn; exact h.range i n hn
  held i n hn := by rw [hb]; exact hh i n hn

theorem entries_congr {p q : TimerPool γ} (hb : q.bucket = p.bucket) (hm : q.maps = p.maps) :
    q.entries = p.entries := by
  funext i; unfold entries; rw [hb, hm]

/-! ## A new map, and one deleted -/

theorem entries_newMap {p : TimerPool γ} (h : Heap p) {idx : Int} (hn : p.bucket idx = none) (j : Int) :
    (p.newMap idx).entries j = p.entries j := by
  unfold entries newMap
  by_cases hj : j = idx
  · subst hj
    simp only [Function.update_self, hn, Option.bind_some, Option.bind_none]; rfl
  · simp only [Function.update_of_ne hj]
    cases hb : p.bucket j with
    | none => rfl
    | some m =>
      obtain ⟨l, hl⟩ := h.live j m hb
      have hne : m ≠ p.mapTop := Nat.ne_of_lt (h.below m l hl)
      rw [Option.bind_some, Option.bind_some, Function.update_of_ne hne]

theorem heap_newMap {p : TimerPool γ} (h : Heap p) {idx : Int} (hn : p.bucket idx = none)
    (hr : 0 ≤ idx ∧ idx < bigBucketCnt * 10) : Heap (p.newMap idx) where
  live i m hm := by
    by_cases hi : i = idx
    · subst hi
      have : p.mapTop = m := by simpa [newMap] using hm
      exact ⟨[], by rw [← this]; exact Function.update_self ..⟩
    · have hm' : p.bucket i = some m := by simpa [newMap, Function.update_of_ne hi] using hm
      obtain ⟨l, hl⟩ := h.live i m hm'
      have hne : m ≠ p.mapTop := Nat.ne_of_lt (h.below m l hl)
      exact ⟨l, by rw [← hl]; exact Function.update_of_ne hne ..⟩
  inj i j m hi hj := by
    have old : ∀ k, k ≠ idx → (p.newMap idx).bucket k = some m → p.bucket k = some m ∧ m < p.mapTop := by
      intro k hk hb
      have hb' : p.bucket k = some m := by simpa [newMap, Function.update_of_ne hk] using hb
      obtain ⟨l, hl⟩ := h.live k m hb'
      exact ⟨hb', h.below m l hl⟩
    have new : ∀ k, k = idx → (p.newMap idx).bucket k = some m → p.mapTop = m := by
      intro k hk hb
      subst hk
      simpa [newMap] using hb
    by_cases h1 : i = idx <;> by_cases h2 : j = idx
    · rw [h1, h2]
    · have := new i h1 hi; have := (old j h2 hj).2; omega
    · have := new j h2 hj; have := (old i h1 hi).2; omega
    · exact h.inj i j m (old i h1 hi).1 (old j h2 hj).1
  below m l hm := by
    show m < p.mapTop + 1
    by_cases hmt : m = p.mapTop
    · omega
    · have hm' : p.maps m = some l := by simpa [newMap, Function.update_of_ne hmt] using hm
      have := h.below m l hm'; omega
  range i m hm := by
    by_cases hi : i = idx
    · rw [hi]; exact hr
    · exact h.range i m (by simpa [newMap, Function.update_of_ne hi] using hm)
  held i m hm := by
    have hb := h.held i m hm
    have hi : i ≠ idx := fun e => by rw [e, hn] at hb; cases hb
    show Function.update p.bucket idx _ i = _
    rw [Function.update_of_ne hi]; exact hb

theorem entries_deleteMap {p : TimerPool γ} (h : Heap p) {i : Int} {m : Nat} (hi : p.bucket i = some m) (j : Int) :
    (p.deleteMap m i).entries j = if j = i then [] else p.entries j := by
  unfold entries deleteMap
  by_cases hj : j = i
  · subst hj
    simp only [Function.update_self, Option.bind_none, if_true]; rfl
  · simp only [Function.update_of_ne hj, if_neg hj]
    cases hb : p.bucket j with
    | none => rfl
    | some m' =>
      have hne : m' ≠ m := fun e => hj (h.inj j i m (e ▸ hb) hi)
      rw [Option.bind_some, Option.bind_some, Function.update_of_ne hne]

theorem heap_deleteMap {p : TimerPool γ} (h : Heap p) {i : Int} {m : Nat} (hi : p.bucket i = some m)
    (hh : p.heldMap ≠ some (i, m)) : Heap (p.deleteMap m i) where
  live j n hn := by
    by_cases hj : j = i
    · subst hj; simp [deleteMap] at hn
    · have hn' : p.bucket j = some n := by simpa [deleteMap, Function.update_of_ne hj] using hn
      have hne : n ≠ m := fun e => hj (h.inj j i m (e ▸ hn') hi)
      obtain ⟨l, hl⟩ := h.live j n hn'
      exact ⟨l, by rw [← hl]; exact Function.update_of_ne hne ..⟩
  inj a b n ha hb := by
    have old : ∀ k, (p.deleteMap m i).bucket k = some n → p.bucket k = some n := by
      intro k hk
      by_cases hki : k = i
      · subst hki; simp [deleteMap] at hk
      · simpa [deleteMap, Function.update_of_ne hki] using hk
    exact h.inj a b n (old a ha) (old b hb)
  below n l hn := by
    show n < p.mapTop
    by_cases hnm : n = m
    · subst hnm; simp [deleteMap] at hn
    · exact h.below n l (by simpa [deleteMap, Function.update_of_ne hnm] using hn)
  range j n hn := by
    by_cases hj : j = i
    · subst hj; simp [deleteMap] at hn
    · exact h.range j n (by simpa [deleteMap, Function.update_of_ne hj] using hn)
  held j n hn := by
    have hb := h.held j n hn
    have hj : j ≠ i := by
      rintro rfl
      rw [hi] at hb
      cases hb
      exact hh hn
    show Function.update p.bucket i none j = _
    rw [Function.update_of_ne hj]; exact hb

theorem bucketMap_spec {p : TimerPool γ} (h : Heap p) {idx : Int} (hr : 0 ≤ idx ∧ idx < bigBucketCnt * 10) :
    let q := p.bucketMap idx (p.bucket idx)
    Heap q.1 ∧ q.1.bucket idx = some q.2 ∧ q.1.entries = p.entries ∧ q.1.heldMap = p.heldMap := by
  cases hb : p.bucket idx with
  | some m => exact ⟨h, hb, rfl, rfl⟩
  | none =>
    refine ⟨heap_newMap h hb hr, ?_, funext (entries_newMap h hb), rfl⟩
    show Function.update p.bucket idx _ idx = _
    exact Function.update_self ..

/-! ## What the calls do -/

/-- The fields that only `Update` and the constructor write. -/
structure SameWheel (p p' : TimerPool γ) : Prop where
  maxIntervalDay : p'.maxIntervalDay = p.maxIntervalDay
  begTime : p'.begTime = p.begTime
  bigBucket : p'.bigBucket = p.bigBucket
  smallBucket : p'.smallBucket = p.smallBucket

/-- A timer has been added to the bucket `idx`, unless one with its expiry was there. -/
structure Added (p p' : TimerPool γ) (idx expire : Int) (func : γ) : Prop extends SameWheel p p' where
  heap : Heap p'
  entries : ∀ j, p'.entries j = if j = idx then OrdMap.insert expire p.nodeTop (p.entries idx) else p.entries j
  nodes : p'.nodes = Function.update p.nodes p.nodeTop (some ⟨p.timerIdAt idx, expire, func⟩)
  nodeTop : p'.nodeTop = p.nodeTop + 1
  curTimerId : p'.curTimerId = p.nextTimerId + 1
  updating : p'.updating = p.updating

/-- The entry `e` is gone from the bucket `idx`, and its node with it. -/
structure Removed (p p' : TimerPool γ) (idx : Int) (e : Int × Nat) : Prop extends SameWheel p p' where
  heap : Heap p'
  entries : ∀ j, p'.entries j = if j = idx then (p.entries idx).erase e else p.entries j
  nodes : p'.nodes = Function.update p.nodes e.2 none
  nodeTop : p'.nodeTop = p.nodeTop
  curTimerId : p'.curTimerId = p.curTimerId
  updating : p'.updating = p.updating

theorem slot_eq_ok {p : TimerPool γ} {big small : Int} {pp : Option Nat} (h : p.slot big small = .ok pp) :
    pp = p.bucket (big * 10 + small) ∧ 0 ≤ big * 10 + small ∧ big * 10 + small < bigBucketCnt * 10 := by
  unfold slot at h
  split at h
  · rename_i hr
    cases h
    unfold smallBucketCnt at hr
    exact ⟨rfl, by omega, by omega⟩
  · cases h

theorem addTimer_spec {p p' : TimerPool γ} {now interval : Int} {func : γ} {id : Nat} (h : Heap p)
    (ha : p.addTimer now interval func = .ok (p', id)) :
    (id = 0 ∧ p' = p) ∨
      (∃ idx, idx = (p.calcBucket now interval).1 * 10 + (p.calcBucket now interval).2 ∧
        0 ≤ idx ∧ idx < bigBucketCnt * 10 ∧ 0 < interval ∧ interval ≤ bigBucketCnt * p.maxIntervalDay * 1000 ∧
        id = p.timerIdAt idx ∧ Added p p' idx (now + interval) func) := by
  unfold addTimer at ha
  split at ha
  · cases ha; exact Or.inl ⟨rfl, rfl⟩
  · split at ha
    · cases ha; exact Or.inl ⟨rfl, rfl⟩
    · rename_i h1 h2
      obtain ⟨pp, hpp, ha⟩ := Except.bind_eq_ok.mp ha
      obtain ⟨hb, hr0, hr1⟩ := slot_eq_ok hpp
      subst hb
      obtain ⟨hq, hqb, hqe, hqh⟩ := bucketMap_spec h ⟨hr0, hr1⟩
      obtain ⟨l, hl, ha⟩ := Except.bind_eq_ok.mp ha
      rw [readMap_of_bucket hq hqb] at hl
      cases hl
      cases ha
      obtain ⟨l₀, hl₀⟩ := hq.live _ _ hqb
      refine Or.inr ⟨_, rfl, hr0, hr1, by omega, by omega, rfl, ?_⟩
      generalize hidx : (p.calcBucket now interval).1 * 10 + (p.calcBucket now interval).2 = idx at *
      have same : ∀ pp, (p.bucketMap idx pp).1.nodes = p.nodes ∧ (p.bucketMap idx pp).1.nodeTop = p.nodeTop ∧
          (p.bucketMap idx pp).1.updating = p.updating ∧ SameWheel p (p.bucketMap idx pp).1 ∧
          (p.bucketMap idx pp).1.curTimerId = p.curTimerId := by
        intro pp
        cases pp <;> exact ⟨rfl, rfl, rfl, ⟨rfl, rfl, rfl, rfl⟩, rfl⟩
      obtain ⟨s1, s2, s3, s4, s5⟩ := same (p.bucket idx)
      refine ⟨⟨s4.1, s4.2, s4.3, s4.4⟩, heap_update hq hl₀ rfl rfl rfl ?_, ?_, ?_, ?_, ?_, s3⟩
      · intro i n hn; exact hq.held i n hn
      · intro j
        rw [entries_update (q := addNode ..) hq hqb rfl rfl j, hqe, s2]
      · unfold addNode timerIdAt nextTimerId
        rw [s1, s2, s5]
      · unfold addNode
        rw [s2]
      · unfold addNode nextTimerId
        rw [s5]

theorem updating_addTimer {p p' : TimerPool γ} {now interval : Int} {func : γ} {id : Nat}
    (ha : p.addTimer now interval func = .ok (p', id)) : p'.updating = p.updating := by
  unfold addTimer at ha
  split at ha
  · cases ha; rfl
  · split at ha
    · cases ha; rfl
    · obtain ⟨pp, -, ha⟩ := Except.bind_eq_ok.mp ha
      obtain ⟨l, -, ha⟩ := Except.bind_eq_ok.mp ha
      cases ha
      cases pp <;> rfl

theorem findTimer_spec {p : TimerPool γ} {id : Nat} : ∀ {l : TimeNodeMap} {r : Option (Int × Nat)},
    p.findTimer id l = .ok r →
    (r = none ∧ ∀ e ∈ l, ∃ nd, p.nodes e.2 = some nd ∧ nd.timerId ≠ id) ∨
      ∃ e ∈ l, r = some e ∧ ∃ nd, p.nodes e.2 = some nd ∧ nd.timerId = id
  | [], r, h => by cases h; exact Or.inl ⟨rfl, by simp⟩
  | e :: l, r, h => by
    unfold findTimer at h
    obtain ⟨nd, hn, h⟩ := Except.bind_eq_ok.mp h
    have hnd : p.nodes e.2 = some nd := by
      unfold readNode at hn
      split at hn <;> cases hn
      assumption
    split at h
    · rename_i hid
      cases h
      exact Or.inr ⟨e, by simp, rfl, nd, hnd, hid⟩
    · rename_i hid
      rcases findTimer_spec h with ⟨hr, hl⟩ | ⟨e', he', hr, hnd'⟩
      · refine Or.inl ⟨hr, fun e' he' => ?_⟩
        rcases List.mem_cons.mp he' with rfl | he'
        · exact ⟨nd, hnd, hid⟩
        · exact hl e' he'
      · exact Or.inr ⟨e', List.mem_cons_of_mem _ he', hr, hnd'⟩

/-- The call does not empty the map that `Update` is in the middle of. -/
def KeepsHeldMap (p : TimerPool γ) (id : Nat) : Prop :=
  ∀ i m e nd, p.heldMap = some (i, m) → p.entries i = [e] → p.nodes e.2 = some nd → nd.timerId ≠ id

theorem cancelTimer_spec {p p' : TimerPool γ} {id : Nat} {ret : Int} (h : Heap p) (hk : p.KeepsHeldMap id)
    (hc : p.cancelTimer id = .ok (p', ret)) :
    (ret = -1 ∧ p' = p ∧ ∀ e ∈ p.entries (highWord id), ∃ nd, p.nodes e.2 = some nd ∧ nd.timerId ≠ id) ∨
      (ret = 0 ∧ ∃ e ∈ p.entries (highWord id), (∃ nd, p.nodes e.2 = some nd ∧ nd.timerId = id) ∧
        Removed p p' (highWord id) e) := by
  unfold cancelTimer at hc
  obtain ⟨pp, hpp, hc⟩ := Except.bind_eq_ok.mp hc
  obtain ⟨hb, hr0, hr1⟩ := slot_eq_ok hpp
  have hidx : (highWord id).tdiv 10 * 10 + (highWord id).tmod 10 = highWord id := Int.tdiv_mul_add_tmod _ _
  rw [hidx] at hb hr0 hr1
  generalize highWord id = idx at *
  subst hb
  cases hbk : p.bucket idx with
  | none =>
    rw [hbk] at hc
    cases hc
    refine Or.inl ⟨rfl, rfl, ?_⟩
    rw [entries_none hbk]; simp
  | some m =>
    rw [hbk] at hc
    simp only at hc
    rw [readMap_of_bucket h hbk] at hc
    obtain ⟨_, hl, hc⟩ := Except.bind_eq_ok.mp hc
    cases hl
    obtain ⟨r, hr, hc⟩ := Except.bind_eq_ok.mp hc
    rcases findTimer_spec hr with ⟨rfl, hnone⟩ | ⟨e, he, rfl, nd, hnd, hid⟩
    · cases hc
      exact Or.inl ⟨rfl, rfl, hnone⟩
    · obtain ⟨l₀, hl₀⟩ := h.live idx m hbk
      cases hc
      refine Or.inr ⟨rfl, e, he, ⟨nd, hnd, hid⟩, ?_⟩
      have hd : Heap (p.dealloc e.2) := heap_congr h rfl rfl rfl h.held
      split
      · rename_i hem
        have hE : (p.entries idx).erase e = [] := List.isEmpty_iff.mp hem
        have hsing : p.entries idx = [e] := by
          have hlen := List.length_erase_of_mem he
          rw [hE, List.length_nil] at hlen
          obtain ⟨x, hx⟩ := List.length_eq_one_iff.mp (by have := List.length_pos_of_mem he; omega : (p.entries idx).length = 1)
          rw [hx] at he ⊢
          rw [List.mem_singleton.mp he]
        have hheld : p.heldMap ≠ some (idx, m) := fun hh => hk idx m e nd hh hsing hnd hid
        refine ⟨⟨rfl, rfl, rfl, rfl⟩, heap_deleteMap hd hbk hheld, fun j => ?_, rfl, rfl, rfl, rfl⟩
        rw [entries_deleteMap hd hbk, hE]; rfl
      · refine ⟨⟨rfl, rfl, rfl, rfl⟩, heap_update hd hl₀ rfl rfl rfl hd.held, fun j => ?_, rfl, rfl, rfl, rfl⟩
        exact entries_update (q := setMap ..) hd hbk rfl rfl j

/-! ## The steps of `Update` -/

/-- Every way `Update` can go on from where it stands. -/
inductive Tick (p : TimerPool γ) (u : Updating) : TimerPool γ → Shown γ → Prop
  | done : u.pc = .bucket → u.eIdx < u.sIdx → Tick p u (p.endUpdate u) .done
  | pass : u.pc = .bucket → u.sIdx ≤ u.eIdx → p.bucket u.sIdx = none → Tick p u (p.nextBucket u) .nothing
  | take {pmap : Nat} : u.pc = .bucket → u.sIdx ≤ u.eIdx → p.bucket u.sIdx = some pmap →
      Tick p u ((p.setMap pmap (takeDue u.now (p.entries u.sIdx)).1).goto u
        (.nodelist pmap (takeDue u.now (p.entries u.sIdx)).2)) .nothing
  | close {pmap : Nat} : u.pc = .nodelist pmap [] →
      Tick p u ((if (p.entries u.sIdx).isEmpty then p.deleteMap pmap u.sIdx else p).nextBucket u) .nothing
  | call {pmap node : Nat} {nodes : List Nat} {nd : TimeNode γ} : u.pc = .nodelist pmap (node :: nodes) →
      p.nodes node = some nd → Tick p u (p.goto u (.callback pmap node nodes)) (.callback node nd.cb)
  | ret {pmap node : Nat} {nodes : List Nat} : u.pc = .callback pmap node nodes →
      Tick p u ((p.dealloc node).goto u (.nodelist pmap nodes)) .nothing

theorem held_nodelist {p : TimerPool γ} {u : Updating} (h : Heap p) (hu : p.updating = some u) {pmap : Nat}
    {nodes : List Nat} (hpc : u.pc = .nodelist pmap nodes) : p.bucket u.sIdx = some pmap :=
  h.held _ _ (by rw [heldMap, hu, Option.bind_some, hpc])

theorem held_callback {p : TimerPool γ} {u : Updating} (h : Heap p) (hu : p.updating = some u) {pmap node : Nat}
    {nodes : List Nat} (hpc : u.pc = .callback pmap node nodes) : p.bucket u.sIdx = some pmap :=
  h.held _ _ (by rw [heldMap, hu, Option.bind_some, hpc])

theorem updateNext_tick {p p' : TimerPool γ} {u : Updating} {shown : Shown γ} (h : Heap p) (hu : p.updating = some u)
    (hn : p.updateNext u = .ok (p', shown)) : Tick p u p' shown := by
  unfold updateNext at hn
  split at hn
  · rename_i hpc
    split at hn
    · rename_i hlt
      cases hn
      exact .done hpc hlt
    · rename_i hle
      obtain ⟨pp, hpp, hn⟩ := Except.bind_eq_ok.mp hn
      have hb := (slot_eq_ok hpp).1
      rw [Int.tdiv_mul_add_tmod] at hb
      cases pp with
      | none =>
        cases hn
        exact .pass hpc (by omega) hb.symm
      | some m =>
        simp only at hn
        rw [readMap_of_bucket h hb.symm] at hn
        cases hn
        exact .take hpc (by omega) hb.symm
  · rename_i pmap hpc
    rw [readMap_of_bucket h (held_nodelist h hu hpc)] at hn
    cases hn
    exact .close hpc
  · rename_i pmap node nodes hpc
    obtain ⟨nd, hnd, hn⟩ := Except.bind_eq_ok.mp hn
    cases hn
    refine .call hpc ?_
    unfold readNode at hnd
    split at hnd <;> cases hnd
    assumption
  · rename_i pmap node nodes hpc
    obtain ⟨nd, hnd, hn⟩ := Except.bind_eq_ok.mp hn
    cases hn
    exact .ret hpc

theorem entries_take {p : TimerPool γ} {u : Updating} (h : Heap p) {pmap : Nat} (hb : p.bucket u.sIdx = some pmap)
    (l : TimeNodeMap) (pc : UpdatePc) (j : Int) :
    ((p.setMap pmap l).goto u pc).entries j = if j = u.sIdx then l else p.entries j :=
  entries_update (q := (p.setMap pmap l).goto u pc) h hb rfl rfl j

theorem entries_close {p : TimerPool γ} {u : Updating} (h : Heap p) {pmap : Nat} (hb : p.bucket u.sIdx = some pmap) :
    ((if (p.entries u.sIdx).isEmpty then p.deleteMap pmap u.sIdx else p).nextBucket u).entries = p.entries := by
  funext j
  split
  · rename_i hem
    have he : ((p.deleteMap pmap u.sIdx).nextBucket u).entries j = (p.deleteMap pmap u.sIdx).entries j :=
      congrFun (entries_congr rfl rfl) j
    rw [he, entries_deleteMap h hb]
    split
    · rename_i hj
      rw [hj, List.isEmpty_iff.mp hem]
    · rfl
  · exact congrFun (entries_congr rfl rfl) j

theorem heap_tick {p p' : TimerPool γ} {u : Updating} {shown : Shown γ} (h : Heap p) (hu : p.updating = some u)
    (ht : Tick p u p' shown) : Heap p' := by
  cases ht with
  | done => exact heap_congr h rfl rfl rfl fun i n hn => by cases hn
  | pass => exact heap_congr h rfl rfl rfl fun i n hn => by cases hn
  | take hpc hle hb =>
    obtain ⟨l, hl⟩ := h.live _ _ hb
    refine heap_update (q := goto ..) h hl rfl rfl rfl fun i n hn => ?_
    cases hn
    exact hb
  | close hpc =>
    have hb := held_nodelist h hu hpc
    split
    · have hd : Heap (p.nextBucket u) := heap_congr h rfl rfl rfl fun i n hn => by cases hn
      exact heap_congr (heap_deleteMap hd hb (by intro hh; cases hh)) rfl rfl rfl fun i n hn => by cases hn
    · exact heap_congr h rfl rfl rfl fun i n hn => by cases hn
  | call hpc hnd =>
    have hb := held_nodelist h hu hpc
    refine heap_congr h rfl rfl rfl fun i n hn => ?_
    cases hn
    exact hb
  | ret hpc =>
    have hb := held_callback h hu hpc
    refine heap_congr (q := goto ..) h rfl rfl rfl fun i n hn => ?_
    cases hn
    exact hb

end TimerPool

end GlobalServer
