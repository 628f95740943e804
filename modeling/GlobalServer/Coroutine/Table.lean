import GlobalServer.Coroutine.Schedule
import GlobalServer.Lib.IdPool
import GlobalServer.Lib.Runs

/-!
# The table of the coroutines

`_schedule_` as it lies in memory: a block of `_cap` pointers, of which a
coroutine with the id `i` has the one at `i - 1`, and a vector with the ids that
are free. An access behind the block, or to a coroutine that has been freed,
ends the run. What a coroutine runs, and where it stands, is a `κ`.
-/

namespace GlobalServer.Coroutine

/-- `_coroutine_` -/
structure Routine (κ : Type) where
  id : Nat
  status : CoStatus
  data : κ

/-- `_schedule_`. The block is empty before it has been allocated; the last free id comes first. -/
structure Schedule (κ : Type) where
  cap : Nat
  nco : Nat
  co : List (Option (Routine κ))
  curco : Option Nat
  freeid : List Nat

namespace Schedule

variable {κ : Type}

def init : Schedule κ := { cap := 0, nco := 0, co := [], curco := none, freeid := [] }

/-- `_co[id - 1]` -/
def read (s : Schedule κ) (id : Nat) : Option (Option (Routine κ)) := s.co[id - 1]?

/-- `_co[id - 1] = c` -/
def write (s : Schedule κ) (id : Nat) (c : Option (Routine κ)) : Option (Schedule κ) :=
  if id - 1 < s.co.length then some { s with co := s.co.set (id - 1) c } else none

/-- The running coroutine, if it has not been freed. -/
def deref (s : Schedule κ) (id : Nat) : Option (Routine κ) := (s.read id).join

def allocSchedule (s : Schedule κ) : Schedule κ :=
  if s.co = [] then
    { cap := defaultCoroutine, nco := 0, co := List.replicate defaultCoroutine none, curco := none, freeid := [] }
  else if s.nco < s.cap then s
  else { s with co := s.co ++ List.replicate s.cap none, cap := s.cap * 2 }

/-- `create`, with the id it returns. -/
def create (s : Schedule κ) (data : κ) : Option (Schedule κ × Nat) :=
  match s.freeid with
  | id :: freeid => ({ s with freeid }.write id (some { id, status := .ready, data })).map fun s => (s, id)
  | [] =>
    let s := if s.nco = s.cap then s.allocSchedule else s
    ({ s with nco := s.nco + 1 }.write (s.nco + 1) (some { id := s.nco + 1, status := .ready, data })).map
      fun t => (t, s.nco + 1)

def checkCoId (s : Schedule κ) (id : Int) : Bool := mainCoroutineId < id ∧ id ≤ s.cap

def checkResume (s : Schedule κ) (id : Int) : Bool := s.curco.isNone && s.checkCoId id

/-- `resume`, up to where the coroutine runs. -/
def resume (s : Schedule κ) (id : Int) : Option (Schedule κ) :=
  if s.checkResume id then do
    match ← s.read id.toNat with
    | none => some s
    | some c => match c.status with
      | .suspend | .ready =>
        let s ← s.write id.toNat (some { c with status := .running })
        some { s with curco := some id.toNat }
      | _ => some s
  else some s

/-- `yield` of a coroutine that will go on with `data`. -/
def yield (s : Schedule κ) (data : κ) : Option (Schedule κ) :=
  match s.curco with
  | none => some s
  | some id => do
    let c ← s.deref id
    let s ← s.write id (some { c with status := .suspend, data })
    some { s with curco := none }

/-- The running coroutine goes on with `data`. -/
def goto (s : Schedule κ) (data : κ) : Option (Schedule κ) :=
  match s.curco with
  | none => some s
  | some id => do
    let c ← s.deref id
    s.write id (some { c with data })

/-- The coroutine's function has returned: `pub_coroutine` marks it dead, and `resume` frees it. -/
def ret (s : Schedule κ) : Option (Schedule κ × Option Nat) :=
  match s.curco with
  | none => some (s, none)
  | some id => do
    let _ ← s.deref id
    let s ← s.write id none
    some ({ s with curco := none, freeid := id :: s.freeid }, some id)

/-- `destroy`, with the id that has become free. -/
def destroy (s : Schedule κ) (id : Int) : Option (Schedule κ × Option Nat) := do
  let cur ← match s.curco with
    | none => some none
    | some cur => (s.deref cur).map fun c => some c.id
  if cur = some id.toNat ∧ 0 ≤ id then some (s, none)
  else if s.checkCoId id then
    match ← s.read id.toNat with
    | none => some (s, none)
    | some _ => do
      let s ← s.write id.toNat none
      some ({ s with freeid := id.toNat :: s.freeid }, some id.toNat)
  else some (s, none)

/-! ## A table in order -/

/-- The coroutine with an id. -/
def slot (s : Schedule κ) (id : Nat) : Option (Routine κ) := if id = 0 then none else (s.read id).join

/-- The block is `_cap` long, the coroutines there are have the ids `live`, each at its own place, `_freeid` has the other
ids there have been, and the running coroutine is there. -/
structure Ok (s : Schedule κ) (live : List Nat) : Prop where
  block : s.co.length = s.cap
  cap : s.nco ≤ s.cap
  pool : IdPool.Ok ⟨s.nco, s.freeid, live⟩
  slot : ∀ id, id ∈ live ↔ (s.slot id).isSome
  ids : ∀ id c, s.slot id = some c → c.id = id
  current : ∀ id, s.curco = some id → id ∈ live

theorem slot_init (id : Nat) : (init : Schedule κ).slot id = none := by
  unfold slot
  split <;> rfl

theorem ok_init : Ok (init : Schedule κ) [] where
  block := rfl
  cap := Nat.le_refl _
  pool := IdPool.ok_init
  slot := by simp [slot_init]
  ids := by simp [slot_init]
  current := by simp [init]

variable {s : Schedule κ} {live : List Nat}

theorem slot_pos {id : Nat} {c : Routine κ} (h : s.slot id = some c) : 0 < id := by
  unfold slot at h
  split at h
  · cases h
  · omega

theorem deref_eq {id : Nat} {c : Routine κ} (h : s.slot id = some c) : s.deref id = some c := by
  have hid := slot_pos h
  unfold slot at h
  rwa [if_neg (by omega)] at h

theorem read_eq (h : s.co.length = s.cap) {id : Nat} (hid : 0 < id) (hle : id ≤ s.cap) : s.read id = some (s.slot id) := by
  have hlt : id - 1 < s.co.length := by omega
  unfold slot
  rw [if_neg (by omega), read, List.getElem?_eq_getElem hlt]
  rfl

theorem write_eq (h : s.co.length = s.cap) {id : Nat} (hid : 0 < id) (hle : id ≤ s.cap) (c : Option (Routine κ)) :
    ∃ co, s.write id c = some { s with co } ∧ co.length = s.cap ∧
      ({ s with co } : Schedule κ).slot = Function.update s.slot id c := by
  have hlt : id - 1 < s.co.length := by omega
  refine ⟨s.co.set (id - 1) c, if_pos hlt, by simp [h], ?_⟩
  funext i
  unfold slot read
  by_cases hi : i = id
  · subst hi
    rw [if_neg (by omega), Function.update_self, List.getElem?_set_self hlt]
    rfl
  · rw [Function.update_of_ne hi]
    by_cases h0 : i = 0
    · rw [if_pos h0, if_pos h0]
    · rw [if_neg h0, if_neg h0, List.getElem?_set_ne (by omega)]

theorem Ok.get (h : Ok s live) {id : Nat} (hid : id ∈ live) : ∃ c, s.slot id = some c ∧ c.id = id := by
  obtain ⟨c, hc⟩ := Option.isSome_iff_exists.mp ((h.slot id).mp hid)
  exact ⟨c, hc, h.ids id c hc⟩

theorem Ok.range (h : Ok s live) {id : Nat} (hid : id ∈ live) : 0 < id ∧ id ≤ s.cap := by
  have hp := h.pool.pos hid
  exact ⟨hp.1, Nat.le_trans hp.2 h.cap⟩

/-- A table in order in which one entry has been written, with what becomes of its id. -/
theorem Ok.of_slot (h : Ok s live) {t : Schedule κ} {ids : List Nat} {id : Nat} {c : Option (Routine κ)}
    (block : t.co.length = t.cap) (cap : t.nco ≤ t.cap) (pool : IdPool.Ok ⟨t.nco, t.freeid, ids⟩)
    (slot : t.slot = Function.update s.slot id c) (hc : ∀ d, c = some d → d.id = id)
    (mem : ∀ i, i ∈ ids ↔ i = id ∧ c.isSome = true ∨ i ≠ id ∧ i ∈ live) (current : ∀ i, t.curco = some i → i ∈ ids) :
    Ok t ids := by
  refine ⟨block, cap, pool, ?_, ?_, current⟩
  · intro i
    rw [mem, slot]
    by_cases hi : i = id
    · simp [hi]
    · rw [Function.update_of_ne hi, ← h.slot i]
      simp [hi]
  · intro i d hd
    rw [slot] at hd
    by_cases hi : i = id
    · rw [hi, Function.update_self] at hd
      rw [hi, hc d hd]
    · rw [Function.update_of_ne hi] at hd
      exact h.ids i d hd

theorem Ok.put (h : Ok s live) {id : Nat} (hid : id ∈ live) {c : Routine κ} (hc : c.id = id) (cur : Option Nat)
    (hcur : ∀ i, cur = some i → i ∈ live) :
    ∃ co, s.write id (some c) = some { s with co } ∧ Ok { s with co, curco := cur } live ∧
      ({ s with co, curco := cur } : Schedule κ).slot = Function.update s.slot id (some c) := by
  obtain ⟨h0, hle⟩ := h.range hid
  obtain ⟨co, hw, hlen, hs⟩ := write_eq h.block h0 hle (some c)
  have hs' : ({ s with co, curco := cur } : Schedule κ).slot = Function.update s.slot id (some c) := hs
  refine ⟨co, hw, h.of_slot hlen h.cap h.pool hs' (fun d hd => Option.some.inj hd ▸ hc) (fun i => ?_) hcur, hs'⟩
  by_cases hi : i = id
  · simp [hi, hid]
  · simp [hi]

theorem Ok.drop (h : Ok s live) {id : Nat} (hid : id ∈ live) (cur : Option Nat) (hcur : ∀ i, cur = some i → i ∈ live ∧ i ≠ id) :
    ∃ co, s.write id none = some { s with co } ∧
      Ok { s with co, curco := cur, freeid := id :: s.freeid } (live.erase id) ∧
      ({ s with co, curco := cur, freeid := id :: s.freeid } : Schedule κ).slot = Function.update s.slot id none := by
  obtain ⟨h0, hle⟩ := h.range hid
  obtain ⟨co, hw, hlen, hs⟩ := write_eq h.block h0 hle none
  have hs' : ({ s with co, curco := cur, freeid := id :: s.freeid } : Schedule κ).slot = Function.update s.slot id none :=
    hs
  have hmem : ∀ i, i ∈ live.erase id ↔ i ≠ id ∧ i ∈ live := fun i => h.pool.nodup_live.mem_erase_iff
  refine ⟨co, hw, h.of_slot hlen h.cap (h.pool.release hid) hs' nofun (fun i => ?_)
    (fun i hi => (hmem i).mpr (hcur i hi).symm), hs'⟩
  rw [hmem]
  simp

/-! ## What each call does -/

theorem allocSchedule_ok (h : Ok s live) (hn : s.nco = s.cap) (hf : s.freeid = []) :
    Ok s.allocSchedule live ∧ s.allocSchedule.nco = s.nco ∧ s.nco < s.allocSchedule.cap ∧ s.allocSchedule.freeid = [] ∧
      s.allocSchedule.slot = s.slot ∧ s.allocSchedule.curco = s.curco := by
  have hnull : ∀ (l : List (Option (Routine κ))) (n i : Nat), ((l ++ List.replicate n none)[i]?).join =
      (l[i]?).join := by
    intro l n i
    by_cases hi : i < l.length
    · rw [List.getElem?_append_left hi]
    · rw [List.getElem?_append_right (by omega), List.getElem?_eq_none (by omega : l.length ≤ i), List.getElem?_replicate]
      split <;> rfl
  have hlen := h.block
  unfold allocSchedule
  by_cases hc : s.co = []
  · have h0 : s.cap = 0 := by rw [← hlen, hc, List.length_nil]
    have hpool := h.pool
    rw [hn, h0] at hpool
    have hl : live = [] := by
      refine List.eq_nil_iff_forall_not_mem.mpr fun id hid => ?_
      have hp : 0 < id ∧ id ≤ 0 := hpool.pos hid
      omega
    have hcur : s.curco = none := by
      refine Option.eq_none_iff_forall_ne_some.mpr fun id hid => ?_
      have hm := h.current id hid
      rw [hl] at hm
      cases hm
    rw [if_pos hc]
    have hs : ∀ id, (⟨defaultCoroutine, 0, List.replicate defaultCoroutine none, none, []⟩ : Schedule κ).slot id
        = s.slot id := by
      intro id
      unfold slot read
      rw [hc]
      split
      · rfl
      · exact hnull [] defaultCoroutine (id - 1)
    refine ⟨⟨List.length_replicate, Nat.zero_le _, ?_, ?_, ?_, ?_⟩, ?_, ?_, rfl, funext hs, hcur.symm⟩
    · rw [hf] at hpool
      exact hpool
    · intro id
      rw [hs]
      exact h.slot id
    · intro id c hid
      rw [hs] at hid
      exact h.ids id c hid
    · intro id hid
      cases hid
    · rw [hn, h0]
    · rw [hn, h0]
      exact Nat.succ_pos _
  · have hpos : 0 < s.cap := by rw [← hlen]; exact List.length_pos_iff.mpr hc
    rw [if_neg hc, if_neg (by omega)]
    have hs : ∀ id, ({ s with co := s.co ++ List.replicate s.cap none, cap := s.cap * 2 } : Schedule κ).slot id
        = s.slot id := by
      intro id
      unfold slot read
      split
      · rfl
      · exact hnull _ _ _
    refine ⟨⟨?_, ?_, h.pool, ?_, ?_, h.current⟩, rfl, ?_, hf, funext hs, rfl⟩
    · show (s.co ++ List.replicate s.cap none).length = s.cap * 2
      rw [List.length_append, List.length_replicate, hlen]
      omega
    · show s.nco ≤ s.cap * 2
      omega
    · intro id
      rw [hs]
      exact h.slot id
    · intro id c hid
      rw [hs] at hid
      exact h.ids id c hid
    · show s.nco < s.cap * 2
      omega

theorem Ok.add (h : Ok s live) {nco id : Nat} {freeid : List Nat} (hn : nco ≤ s.cap)
    (hp : IdPool.Ok ⟨nco, freeid, id :: live⟩) {c : Routine κ} (hc : c.id = id) :
    ∃ co, ({ s with nco, freeid } : Schedule κ).write id (some c) = some { s with nco, freeid, co } ∧
      Ok { s with nco, freeid, co } (id :: live) ∧
      ({ s with nco, freeid, co } : Schedule κ).slot = Function.update s.slot id (some c) := by
  have hid := hp.pos List.mem_cons_self
  have hle : id ≤ s.cap := Nat.le_trans hid.2 hn
  obtain ⟨co, hw, hlen, hs⟩ := write_eq (s := { s with nco, freeid }) h.block hid.1 hle (some c)
  have hs' : ({ s with nco, freeid, co } : Schedule κ).slot = Function.update s.slot id (some c) := hs
  refine ⟨co, hw, h.of_slot hlen hn hp hs' (fun d hd => Option.some.inj hd ▸ hc) (fun i => ?_)
    (fun i hi => List.mem_cons_of_mem _ (h.current i hi)), hs'⟩
  by_cases hi : i = id
  · simp [hi]
  · simp [hi]

theorem Ok.create_eq (h : Ok s live) (data : κ) :
    ∃ t id, s.create data = some (t, id) ∧ Ok t (id :: live) ∧ t.curco = s.curco ∧
      t.slot = Function.update s.slot id (some ⟨id, .ready, data⟩) ∧
      (s.freeid = id :: t.freeid ∨ s.freeid = t.freeid) := by
  have hp := h.pool.alloc
  unfold create
  cases hf : s.freeid with
  | cons id freeid =>
    have ha : IdPool.Pool.alloc ⟨s.nco, s.freeid, live⟩ = ⟨s.nco, freeid, id :: live⟩ := by rw [hf]; rfl
    rw [ha] at hp
    obtain ⟨co, hw, hok, hs⟩ := h.add h.cap hp (c := ⟨id, .ready, data⟩) rfl
    refine ⟨_, id, ?_, hok, rfl, hs, .inl rfl⟩
    dsimp only
    rw [hw]
    rfl
  | nil =>
    have ha : IdPool.Pool.alloc ⟨s.nco, s.freeid, live⟩ = ⟨s.nco + 1, [], (s.nco + 1) :: live⟩ := by rw [hf]; rfl
    rw [ha] at hp
    obtain ⟨u, hu, hok, hnco, hcap, hfree, hslot, hcur⟩ : ∃ u, (if s.nco = s.cap then s.allocSchedule else s) = u ∧
        Ok u live ∧ u.nco = s.nco ∧ s.nco < u.cap ∧ u.freeid = [] ∧ u.slot = s.slot ∧ u.curco = s.curco := by
      by_cases hc : s.nco = s.cap
      · exact ⟨_, if_pos hc, allocSchedule_ok h hc hf⟩
      · exact ⟨s, if_neg hc, h, rfl, Nat.lt_of_le_of_ne h.cap hc, hf, rfl, rfl⟩
    obtain ⟨co, hw, hok', hs⟩ := hok.add hcap hp (c := ⟨s.nco + 1, .ready, data⟩) rfl
    rw [hslot] at hs
    refine ⟨{ u with nco := s.nco + 1, freeid := [], co }, s.nco + 1, ?_, hok', hcur, hs, .inr rfl⟩
    have he : ({ u with nco := s.nco + 1 } : Schedule κ) = { u with nco := s.nco + 1, freeid := [] } := by rw [← hfree]
    dsimp only
    rw [hu, hnco, he, hw]
    rfl

theorem Ok.checkCoId_live (h : Ok s live) {id : Nat} (hid : id ∈ live) : s.checkCoId id = true := by
  have hr := h.range hid
  simp [checkCoId, mainCoroutineId, hr]

theorem read_checked (h : Ok s live) {id : Int} (hc : s.checkCoId id = true) :
    0 < id.toNat ∧ (id.toNat : Int) = id ∧ s.read id.toNat = some (s.slot id.toNat) := by
  obtain ⟨h0, hle⟩ : 0 < id ∧ id ≤ s.cap := of_decide_eq_true hc
  exact ⟨by omega, by omega, read_eq h.block (by omega) (by omega)⟩

def Runnable (c : Routine κ) : Prop := c.status = .suspend ∨ c.status = .ready

theorem Ok.resume_cases (h : Ok s live) (id : Int) :
    s.resume id = some s ∧ (∀ n c, id = (n : Nat) → s.curco = none → s.slot n = some c → ¬ Runnable c) ∨
    ∃ n c t, id = (n : Nat) ∧ s.curco = none ∧ n ∈ live ∧ s.slot n = some c ∧ Runnable c ∧ s.resume id = some t ∧
      Ok t live ∧ t.curco = some n ∧ t.slot = Function.update s.slot n (some { c with status := .running }) ∧
      t.freeid = s.freeid := by
  unfold resume
  by_cases hc : s.checkResume id = true
  · rw [if_pos hc]
    obtain ⟨hcur, hid⟩ : s.curco = none ∧ s.checkCoId id = true := by simpa [checkResume] using hc
    obtain ⟨h0, hn, hr⟩ := read_checked h hid
    simp only [hr, Option.bind_eq_bind, Option.bind_some]
    cases hs : s.slot id.toNat with
    | none =>
      left
      refine ⟨rfl, fun n c he _ hs' => ?_⟩
      rw [he, Int.toNat_natCast, hs'] at hs
      cases hs
    | some c =>
      have hl : id.toNat ∈ live := (h.slot _).mpr (by rw [hs]; rfl)
      have hci := h.ids _ _ hs
      by_cases hst : Runnable c
      · right
        obtain ⟨co, hw, hok, hs'⟩ := h.put hl (c := { c with status := .running }) hci (some id.toNat)
          (fun i hi => by cases hi; exact hl)
        refine ⟨id.toNat, c, _, hn.symm, hcur, hl, hs, hst, ?_, hok, rfl, hs', rfl⟩
        rcases hst with hst | hst
        · simp [hst, hw]
        · simp [hst, hw]
      · left
        refine ⟨?_, fun n d he _ hd => ?_⟩
        · cases hcs : c.status with
          | suspend => exact absurd (.inl hcs) hst
          | ready => exact absurd (.inr hcs) hst
          | running => simp [hcs]
          | dead => simp [hcs]
        · rw [he, Int.toNat_natCast, hd] at hs
          cases hs
          exact hst
  · rw [if_neg hc]
    left
    refine ⟨rfl, fun n c he hcur hs => absurd ?_ hc⟩
    have hl : n ∈ live := (h.slot n).mpr (by rw [hs]; rfl)
    simp [checkResume, hcur, he, h.checkCoId_live hl]

theorem Ok.yield_eq (h : Ok s live) {id : Nat} (hcur : s.curco = some id) (data : κ) :
    ∃ t, s.yield data = some t ∧ Ok t live ∧ t.curco = none ∧
      t.slot = Function.update s.slot id (some ⟨id, .suspend, data⟩) ∧ t.freeid = s.freeid := by
  have hl := h.current id hcur
  obtain ⟨c, hs, hid⟩ := h.get hl
  obtain ⟨co, hw, hok, hs'⟩ := h.put hl (c := { c with status := .suspend, data }) hid none nofun
  rw [hid] at hs'
  refine ⟨_, ?_, hok, rfl, hs', rfl⟩
  simp only [yield, hcur, deref_eq hs, Option.bind_eq_bind, Option.bind_some, hw]

theorem Ok.goto_eq (h : Ok s live) {id : Nat} (hcur : s.curco = some id) (data : κ) :
    ∃ c t, s.slot id = some c ∧ s.goto data = some t ∧ Ok t live ∧ t.curco = some id ∧
      t.slot = Function.update s.slot id (some { c with data }) := by
  have hl := h.current id hcur
  obtain ⟨c, hs, hid⟩ := h.get hl
  obtain ⟨co, hw, hok, hs'⟩ := h.put hl (c := { c with data }) hid s.curco h.current
  refine ⟨c, _, hs, ?_, hok, hcur, hs'⟩
  simp only [goto, hcur, deref_eq hs, Option.bind_eq_bind, Option.bind_some, hw]

theorem Ok.ret_eq (h : Ok s live) {id : Nat} (hcur : s.curco = some id) :
    ∃ t, s.ret = some (t, some id) ∧ Ok t (live.erase id) ∧ t.curco = none ∧ t.slot = Function.update s.slot id none ∧
      t.freeid = id :: s.freeid := by
  have hl := h.current id hcur
  obtain ⟨c, hs, hid⟩ := h.get hl
  obtain ⟨co, hw, hok, hs'⟩ := h.drop hl none nofun
  refine ⟨_, ?_, hok, rfl, hs', rfl⟩
  simp only [ret, hcur, deref_eq hs, Option.bind_eq_bind, Option.bind_some, hw]

theorem Ok.destroy_cases (h : Ok s live) (id : Int) :
    s.destroy id = some (s, none) ∧ (∀ n, id = (n : Nat) → n ∈ live → s.curco = some n) ∨
    ∃ n t, id = (n : Nat) ∧ n ∈ live ∧ s.curco ≠ some n ∧ s.destroy id = some (t, some n) ∧ Ok t (live.erase n) ∧
      t.curco = s.curco ∧ t.slot = Function.update s.slot n none ∧ t.freeid = n :: s.freeid := by
  obtain ⟨cur, hcur, hd⟩ : ∃ cur : Option Nat, cur = s.curco ∧ s.destroy id =
      if cur = some id.toNat ∧ 0 ≤ id then some (s, none)
      else if s.checkCoId id then (s.read id.toNat).bind fun
        | none => some (s, none)
        | some _ => (s.write id.toNat none).bind fun s =>
          some ({ s with freeid := id.toNat :: s.freeid }, some id.toNat)
      else some (s, none) := by
    refine ⟨s.curco, rfl, ?_⟩
    unfold destroy
    cases hcur : s.curco with
    | none => rfl
    | some n =>
      obtain ⟨c, hs, hid⟩ := h.get (h.current n hcur)
      simp only [deref_eq hs, Option.bind_eq_bind, Option.bind_some, Option.map_some, hid]
  rw [hd]
  by_cases hself : cur = some id.toNat ∧ 0 ≤ id
  · left
    rw [if_pos hself]
    refine ⟨rfl, fun n he _ => ?_⟩
    rw [← hcur, hself.1, he, Int.toNat_natCast]
  · rw [if_neg hself]
    by_cases hc : s.checkCoId id = true
    · rw [if_pos hc]
      obtain ⟨h0, hn, hr⟩ := read_checked h hc
      cases hs : s.slot id.toNat with
      | none =>
        left
        refine ⟨by simp only [hr, hs, Option.bind_some], fun n he hl => ?_⟩
        rw [he, Int.toNat_natCast] at hs
        obtain ⟨c, hc', -⟩ := h.get hl
        rw [hs] at hc'
        cases hc'
      | some c =>
        right
        have hl : id.toNat ∈ live := (h.slot _).mpr (by rw [hs]; rfl)
        have hne : s.curco ≠ some id.toNat := fun he => hself ⟨hcur.trans he, by omega⟩
        obtain ⟨co, hw, hok, hs'⟩ := h.drop hl s.curco
          (fun i hi => ⟨h.current i hi, fun he => hne (by rw [hi, he])⟩)
        refine ⟨id.toNat, _, hn.symm, hl, hne, ?_, hok, rfl, hs', rfl⟩
        simp only [hr, hs, hw, Option.bind_some]
    · left
      rw [if_neg hc]
      refine ⟨rfl, fun n he hl => absurd ?_ hc⟩
      rw [he]
      exact h.checkCoId_live hl

end Schedule

/-! ## Runs -/

inductive Op (κ : Type) where
  | create (data : κ)
  | resume (id : Int)
  | yield (data : κ)
  | ret
  | destroy (id : Int)

/-- A schedule, the ids of the coroutines that have been created and have not ended, and all ids that `create` has
returned. -/
structure World (κ : Type) where
  sched : Schedule κ
  live : List Nat
  used : List Nat

namespace World

variable {κ : Type}

def init : World κ := { sched := .init, live := [], used := [] }

/-- After a call in which a coroutine may have ended. -/
def ended (w : World κ) (r : Schedule κ × Option Nat) : World κ :=
  match r.2 with
  | none => { w with sched := r.1 }
  | some id => { w with sched := r.1, live := w.live.erase id }

def step (w : World κ) : Op κ → Option (World κ)
  | .create data => (w.sched.create data).map fun r => { sched := r.1, live := r.2 :: w.live, used := r.2 :: w.used }
  | .resume id => (w.sched.resume id).map fun sched => { w with sched }
  | .yield data => (w.sched.yield data).map fun sched => { w with sched }
  | .ret => w.sched.ret.map w.ended
  | .destroy id => (w.sched.destroy id).map w.ended

structure Ok (w : World κ) : Prop where
  sched : w.sched.Ok w.live
  used : ∀ id, id ∈ w.used ↔ id ∈ w.live ∨ id ∈ w.sched.freeid

theorem ok_init : Ok (init : World κ) where
  sched := Schedule.ok_init
  used := by simp [init, Schedule.init]

variable {w : World κ}

theorem Ok.release (h : Ok w) {t : Schedule κ} {id : Nat} (hid : id ∈ w.live) (ht : t.Ok (w.live.erase id))
    (hf : t.freeid = id :: w.sched.freeid) : Ok (w.ended (t, some id)) := by
  refine ⟨ht, fun i => (h.used i).trans ?_⟩
  show i ∈ w.live ∨ _ ↔ i ∈ w.live.erase id ∨ i ∈ t.freeid
  rw [hf, h.sched.pool.nodup_live.mem_erase_iff, List.mem_cons]
  by_cases hi : i = id
  · simp [hi, hid]
  · simp [hi]

theorem Ok.step (h : Ok w) (e : Op κ) : ∃ w', w.step e = some w' ∧ Ok w' := by
  unfold World.step
  cases e with
  | create data =>
    obtain ⟨t, id, he, hok, -, -, hf⟩ := h.sched.create_eq data
    refine ⟨_, congrArg (Option.map _) he, hok, fun i => ?_⟩
    show i ∈ id :: w.used ↔ i ∈ id :: w.live ∨ i ∈ t.freeid
    rw [List.mem_cons, List.mem_cons, h.used]
    rcases hf with hf | hf
    · rw [hf, List.mem_cons]
      tauto
    · rw [hf]
      tauto
  | resume id =>
    rcases h.sched.resume_cases id with ⟨he, -⟩ | ⟨n, c, t, -, -, -, -, -, he, hok, -, -, hf⟩
    · exact ⟨_, congrArg (Option.map _) he, h⟩
    · refine ⟨_, congrArg (Option.map _) he, hok, fun i => ?_⟩
      rw [h.used, ← hf]
  | yield data =>
    cases hc : w.sched.curco with
    | none =>
      have he : w.sched.yield data = some w.sched := by simp [Schedule.yield, hc]
      exact ⟨_, congrArg (Option.map _) he, h⟩
    | some id =>
      obtain ⟨t, he, hok, -, -, hf⟩ := h.sched.yield_eq hc data
      refine ⟨_, congrArg (Option.map _) he, hok, fun i => ?_⟩
      rw [h.used, ← hf]
  | ret =>
    cases hc : w.sched.curco with
    | none =>
      have he : w.sched.ret = some (w.sched, none) := by simp [Schedule.ret, hc]
      exact ⟨_, congrArg (Option.map _) he, h⟩
    | some id =>
      obtain ⟨t, he, hok, -, -, hf⟩ := h.sched.ret_eq hc
      exact ⟨_, congrArg (Option.map _) he, h.release (h.sched.current id hc) hok hf⟩
  | destroy id =>
    rcases h.sched.destroy_cases id with ⟨he, -⟩ | ⟨n, t, -, hl, -, he, hok, -, -, hf⟩
    · exact ⟨_, congrArg (Option.map _) he, h⟩
    · exact ⟨_, congrArg (Option.map _) he, h.release hl hok hf⟩

theorem Ok.replay (h : Ok w) (ops : List (Op κ)) : ∃ w', Runs.replay World.step w ops = some w' ∧ Ok w' := by
  induction ops generalizing w with
  | nil => exact ⟨w, rfl, h⟩
  | cons e ops ih =>
    obtain ⟨w₁, he, h₁⟩ := h.step e
    obtain ⟨w₂, hr, h₂⟩ := ih h₁
    refine ⟨w₂, ?_, h₂⟩
    rw [Runs.replay, he, Option.bind_some, hr]

end World

end GlobalServer.Coroutine
