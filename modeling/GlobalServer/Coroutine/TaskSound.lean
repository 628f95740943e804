import GlobalServer.Coroutine.Task

/-!
# Wrappers and coroutines that fit each other

As long as nobody resumes a coroutine that has nothing to do, and `clrTask`
finds no free wrapper, every coroutine has its wrapper and every wrapper its
coroutine, the free ones are those whose coroutine waits for a task, and a task
that is handed over is started at once.
-/

namespace GlobalServer.Coroutine.Tasks

/-- Each coroutine has its own wrapper and is suspended unless it runs, and the wrappers of those without a task are
free. -/
structure Fits (s : Tasks) : Prop where
  table : ∃ live, s.sched.Ok live
  owner : ∀ id c, s.sched.slot id = some c →
    c.data.wrapper ∈ s.alltaskwrapperset ∧ s.wrappers c.data.wrapper = some ⟨id, c.data.task⟩
  owned : ∀ p ∈ s.alltaskwrapperset, ∃ id c, s.sched.slot id = some c ∧ c.data.wrapper = p
  status : ∀ id c, s.sched.slot id = some c → c.status = if s.sched.curco = some id then .running else .suspend
  busy : ∀ id c, s.sched.slot id = some c → s.sched.curco = some id → c.data.task ≠ none
  idle : ∀ id c, s.sched.slot id = some c → (c.data.task = none ↔ c.data.wrapper ∈ s.freecovec)
  free : ∀ p ∈ s.freecovec, p ∈ s.alltaskwrapperset
  freecovec : s.freecovec.Nodup
  all : s.alltaskwrapperset.Nodup
  fresh : ∀ p ∈ s.alltaskwrapperset, p < s.brk

/-- Each task is waiting, or its function has been called once, or `clrTask` has dropped it. -/
structure Counted (s : Tasks) : Prop where
  ran : s.ran.Nodup
  old : ∀ n ∈ s.ran, n < s.submitted
  handed : ∀ n ∈ s.handed, n ∈ s.ran
  waiting : s.worktasklist.Nodup
  later : ∀ n ∈ s.worktasklist, n < s.submitted ∧ n ∉ s.ran

theorem fits_init : Fits init where
  table := ⟨[], Schedule.ok_init⟩
  owner := by simp [init, Schedule.slot_init]
  owned := by simp [init]
  status := by simp [init, Schedule.slot_init]
  busy := by simp [init, Schedule.slot_init]
  idle := by simp [init, Schedule.slot_init]
  free := by simp [init]
  freecovec := List.nodup_nil
  all := List.nodup_nil
  fresh := by simp [init]

theorem counted_init : Counted init where
  ran := List.nodup_nil
  old := by simp [init]
  handed := by simp [init]
  waiting := List.nodup_nil
  later := by simp [init]

variable {s t : Tasks}

theorem main_iff : s.main = true ↔ s.sched.curco = none := Option.isNone_iff_eq_none

theorem Fits.own (h : Fits s) {id : Nat} {c : Routine Loop} (hc : s.sched.slot id = some c) :
    ∀ i d, s.sched.slot i = some d → (d.data.wrapper = c.data.wrapper ↔ i = id) := by
  intro i d hd
  have hi := (h.owner i d hd).2
  constructor
  · intro he
    rw [he, (h.owner id c hc).2] at hi
    exact (congrArg Wrapper.co_id (Option.some.inj hi)).symm
  · intro he
    rw [he, hc] at hd
    cases hd
    rfl

theorem Fits.put (h : Fits s) {id p : Nat} {st : CoStatus} {task : Option Nat} (table : ∃ live, t.sched.Ok live)
    (own : ∀ i d, s.sched.slot i = some d → (d.data.wrapper = p ↔ i = id))
    (slot : t.sched.slot = Function.update s.sched.slot id (some ⟨id, st, ⟨p, task⟩⟩))
    (wrappers : t.wrappers = Function.update s.wrappers p (some ⟨id, task⟩))
    (mem : ∀ q, q ∈ t.alltaskwrapperset ↔ q = p ∨ q ∈ s.alltaskwrapperset) (all : t.alltaskwrapperset.Nodup)
    (fresh : ∀ q ∈ t.alltaskwrapperset, q < t.brk)
    (free : ∀ q, q ∈ t.freecovec ↔ q = p ∧ task = none ∨ q ≠ p ∧ q ∈ s.freecovec) (freecovec : t.freecovec.Nodup)
    (before : ∀ i, s.sched.curco = some i → i = id)
    (after : st = .running ∧ task ≠ none ∧ t.sched.curco = some id ∨ st = .suspend ∧ t.sched.curco = none) : Fits t := by
  have hne : ∀ i, i ≠ id → s.sched.curco ≠ some i ∧ t.sched.curco ≠ some i := by
    intro i hi
    refine ⟨fun he => hi (before i he), fun he => ?_⟩
    rcases after with ⟨-, -, ha⟩ | ⟨-, ha⟩
    · rw [ha] at he
      cases he
      exact hi rfl
    · rw [ha] at he
      cases he
  have hcase : ∀ i d, t.sched.slot i = some d →
      i = id ∧ d = ⟨id, st, ⟨p, task⟩⟩ ∨ i ≠ id ∧ s.sched.slot i = some d ∧ d.data.wrapper ≠ p := by
    intro i d hd
    rw [slot] at hd
    by_cases hi : i = id
    · rw [hi, Function.update_self] at hd
      cases hd
      exact .inl ⟨hi, rfl⟩
    · rw [Function.update_of_ne hi] at hd
      exact .inr ⟨hi, hd, fun he => hi ((own i d hd).mp he)⟩
  refine ⟨table, ?_, ?_, ?_, ?_, ?_, ?_, freecovec, all, fresh⟩
  · intro i d hd
    rw [mem, wrappers]
    rcases hcase i d hd with ⟨rfl, rfl⟩ | ⟨-, hd, hp⟩
    · exact ⟨.inl rfl, Function.update_self ..⟩
    · rw [Function.update_of_ne hp]
      exact ⟨.inr (h.owner i d hd).1, (h.owner i d hd).2⟩
  · intro q hq
    rw [slot]
    by_cases hqp : q = p
    · exact ⟨id, _, Function.update_self .., hqp.symm⟩
    · obtain ⟨i, d, hd, hq⟩ := h.owned q (((mem q).mp hq).resolve_left hqp)
      have hi : i ≠ id := fun he => hqp (hq.symm.trans ((own i d hd).mpr he))
      exact ⟨i, d, (Function.update_of_ne hi ..).trans hd, hq⟩
  · intro i d hd
    rcases hcase i d hd with ⟨rfl, rfl⟩ | ⟨hi, hd, -⟩
    · rcases after with ⟨hst, -, ha⟩ | ⟨hst, ha⟩
      · rw [hst, ha, if_pos rfl]
      · rw [hst, ha, if_neg nofun]
    · rw [h.status i d hd, if_neg (hne i hi).1, if_neg (hne i hi).2]
  · intro i d hd hcur
    rcases hcase i d hd with ⟨rfl, rfl⟩ | ⟨hi, -, -⟩
    · rcases after with ⟨-, ht, -⟩ | ⟨-, ha⟩
      · exact ht
      · rw [ha] at hcur
        cases hcur
    · exact absurd hcur (hne i hi).2
  · intro i d hd
    rw [free]
    rcases hcase i d hd with ⟨rfl, rfl⟩ | ⟨-, hd, hp⟩
    · simp
    · rw [h.idle i d hd]
      simp [hp]
  · intro q hq
    rw [mem]
    rcases (free q).mp hq with ⟨hq, -⟩ | ⟨-, hq⟩
    · exact .inl hq
    · exact .inr (h.free q hq)

theorem Fits.drop (h : Fits s) {id : Nat} {c : Routine Loop} (hc : s.sched.slot id = some c) (hct : c.data.task ≠ none)
    (table : ∃ live, t.sched.Ok live) (slot : t.sched.slot = Function.update s.sched.slot id none)
    (wrappers : t.wrappers = Function.update s.wrappers c.data.wrapper none)
    (all : t.alltaskwrapperset = s.alltaskwrapperset.erase c.data.wrapper) (brk : t.brk = s.brk)
    (freecovec : t.freecovec = s.freecovec) (before : ∀ i, s.sched.curco = some i → i = id)
    (after : t.sched.curco = none) : Fits t := by
  have hcase : ∀ i d, t.sched.slot i = some d → i ≠ id ∧ s.sched.slot i = some d ∧ d.data.wrapper ≠ c.data.wrapper := by
    intro i d hd
    rw [slot] at hd
    by_cases hi : i = id
    · rw [hi, Function.update_self] at hd
      cases hd
    · rw [Function.update_of_ne hi] at hd
      exact ⟨hi, hd, fun he => hi ((h.own hc i d hd).mp he)⟩
  have hmem : ∀ q, q ∈ t.alltaskwrapperset ↔ q ≠ c.data.wrapper ∧ q ∈ s.alltaskwrapperset := by
    intro q
    rw [all, h.all.mem_erase_iff]
  refine ⟨table, ?_, ?_, ?_, ?_, ?_, ?_, ?_, ?_, ?_⟩
  · intro i d hd
    obtain ⟨-, hd, hp⟩ := hcase i d hd
    rw [hmem, wrappers, Function.update_of_ne hp]
    exact ⟨⟨hp, (h.owner i d hd).1⟩, (h.owner i d hd).2⟩
  · intro q hq
    obtain ⟨hqp, hq⟩ := (hmem q).mp hq
    obtain ⟨i, d, hd, hq⟩ := h.owned q hq
    have hi : i ≠ id := fun he => hqp (hq.symm.trans ((h.own hc i d hd).mpr he))
    exact ⟨i, d, by rw [slot, Function.update_of_ne hi, hd], hq⟩
  · intro i d hd
    obtain ⟨hi, hd, -⟩ := hcase i d hd
    rw [h.status i d hd, if_neg fun he => hi (before i he), after, if_neg nofun]
  · intro i d _ hcur
    rw [after] at hcur
    cases hcur
  · intro i d hd
    rw [freecovec]
    exact h.idle i d (hcase i d hd).2.1
  · intro q hq
    rw [freecovec] at hq
    exact (hmem q).mpr ⟨fun he => hct ((h.idle id c hc).mpr (he ▸ hq)), h.free q hq⟩
  · rw [freecovec]
    exact h.freecovec
  · rw [all]
    exact h.all.erase _
  · intro q hq
    rw [brk]
    exact h.fresh q ((hmem q).mp hq).2

/-! ## Steps -/

theorem resume_next {id n : Nat} {c : Routine Loop} (hok : ∃ live, s.sched.Ok live) (hcur : s.sched.curco = none)
    (hc : s.sched.slot id = some c) (hr : Schedule.Runnable c) (ht : c.data.task = none)
    (hw : s.wrappers c.data.wrapper = some ⟨id, some n⟩) :
    ∃ sched, s.resume id = some { s with sched, ran := n :: s.ran } ∧ (∃ live, sched.Ok live) ∧ sched.curco = some id ∧
      sched.slot = Function.update s.sched.slot id (some ⟨id, .running, ⟨c.data.wrapper, some n⟩⟩) := by
  obtain ⟨live, hok⟩ := hok
  rcases hok.resume_cases id with ⟨-, hno⟩ | ⟨i, d, t, hi, -, -, hd, -, he, hokt, hcurt, hslot, -⟩
  · exact absurd hr (hno id c rfl hcur hc)
  obtain rfl : id = i := Int.ofNat.inj hi
  rw [hc] at hd
  cases hd
  obtain ⟨d, u, hd, hu, hoku, hcuru, hslotu⟩ := hokt.goto_eq hcurt ⟨c.data.wrapper, some n⟩
  rw [hslot, Function.update_self] at hd
  cases hd
  rw [hslot, Function.update_idem, hok.ids id c hc] at hslotu
  refine ⟨u, ?_, ⟨live, hoku⟩, hcuru, hslotu⟩
  have hderef : t.deref id = some { c with status := .running } :=
    Schedule.deref_eq (by rw [hslot, Function.update_self])
  simp only [resume, he, Option.bind_eq_bind, Option.bind_some, hcurt, hderef, ht, next, hw, hu]

/-- What `getCoTaskWrapper` leaves: the wrapper `p`, not free any more, of a coroutine `id` that can run. -/
structure Taken (s t : Tasks) (p id : Nat) (c : Routine Loop) : Prop where
  table : ∃ live, t.sched.Ok live
  main : t.sched.curco = none
  slot : t.sched.slot = Function.update s.sched.slot id (some c)
  runnable : Schedule.Runnable c
  data : c.data = ⟨p, none⟩
  wrappers : t.wrappers = Function.update s.wrappers p (some ⟨id, none⟩)
  own : ∀ i d, s.sched.slot i = some d → (d.data.wrapper = p ↔ i = id)
  mem : ∀ q, q ∈ t.alltaskwrapperset ↔ q = p ∨ q ∈ s.alltaskwrapperset
  all : t.alltaskwrapperset.Nodup
  fresh : ∀ q ∈ t.alltaskwrapperset, q < t.brk
  free : ∀ q, q ∈ t.freecovec ↔ q ≠ p ∧ q ∈ s.freecovec
  freecovec : t.freecovec.Nodup
  counts : t.ran = s.ran ∧ t.submitted = s.submitted ∧ t.handed = s.handed ∧ t.worktasklist = s.worktasklist

theorem Fits.getCoTaskWrapper_eq (h : Fits s) (hcur : s.sched.curco = none) :
    ∃ t p id c, s.getCoTaskWrapper = some (t, p) ∧ Taken s t p id c := by
  unfold getCoTaskWrapper
  cases hf : s.freecovec with
  | cons p freecovec =>
    have hp : p ∈ s.freecovec := hf ▸ List.mem_cons_self
    have hnd := h.freecovec
    rw [hf, List.nodup_cons] at hnd
    obtain ⟨id, c, hc, rfl⟩ := h.owned p (h.free p hp)
    have ht := (h.idle id c hc).mpr hp
    have hst := h.status id c hc
    rw [hcur, if_neg nofun] at hst
    have hw := (h.owner id c hc).2
    rw [ht] at hw
    refine ⟨{ s with freecovec }.setWrapper c.data.wrapper (some ⟨id, none⟩), c.data.wrapper, id, c, ?_, ?_⟩
    · simp only [hw, Option.bind_eq_bind, Option.bind_some]
    · refine ⟨h.table, hcur, (Function.update_eq_self_iff.mpr hc.symm).symm, .inl hst, by rw [← ht], rfl, h.own hc, ?_,
        h.all, h.fresh, ?_, hnd.2, rfl, rfl, rfl, rfl⟩
      · intro q
        refine ⟨.inr, fun hq => hq.elim (fun hq => ?_) (fun hq => hq)⟩
        rw [hq]
        exact (h.owner id c hc).1
      · intro q
        show q ∈ freecovec ↔ _
        rw [hf, List.mem_cons]
        constructor
        · intro hq
          exact ⟨fun he => hnd.1 (he ▸ hq), .inr hq⟩
        · intro hq
          exact hq.2.resolve_left hq.1
  | nil =>
    obtain ⟨live, hok⟩ := h.table
    obtain ⟨sched, id, he, hok', hcur', hslot, -⟩ := hok.create_eq ⟨s.brk, none⟩
    have hid : s.sched.slot id = none := by
      refine Option.eq_none_iff_forall_ne_some.mpr fun c hc => ?_
      have hl : id ∈ live := (hok.slot id).mpr (by rw [hc]; rfl)
      exact (List.nodup_cons.mp hok'.pool.nodup_live).1 hl
    have hbrk : s.brk ∉ s.alltaskwrapperset := fun hb => Nat.lt_irrefl _ (h.fresh _ hb)
    refine ⟨{ s with sched, brk := s.brk + 1, alltaskwrapperset := s.brk :: s.alltaskwrapperset }.setWrapper s.brk
      (some ⟨id, none⟩), s.brk, id, ⟨id, .ready, ⟨s.brk, none⟩⟩, ?_, ?_⟩
    · simp only [he, hf, Option.bind_eq_bind, Option.bind_some]
    · refine ⟨⟨_, hok'⟩, hcur'.trans hcur, hslot, .inr rfl, rfl, rfl, ?_, fun q => List.mem_cons,
        List.nodup_cons.mpr ⟨hbrk, h.all⟩, ?_, ?_, h.freecovec, rfl, rfl, rfl, rfl⟩
      · intro i d hd
        constructor
        · intro he
          exact absurd (he ▸ (h.owner i d hd).1) hbrk
        · intro he
          rw [he, hid] at hd
          cases hd
      · intro q hq
        show q < s.brk + 1
        rcases List.mem_cons.mp hq with rfl | hq
        · exact Nat.lt_succ_self _
        · exact Nat.lt_succ_of_lt (h.fresh q hq)
      · intro q
        show q ∈ s.freecovec ↔ _
        simp [hf]

theorem Fits.give_eq (h : Fits s) (hcur : s.sched.curco = none) (n : Nat) :
    ∃ t, s.give n = some t ∧ Fits t ∧ t.ran = n :: s.ran ∧ t.submitted = s.submitted ∧ t.handed = s.handed ∧
      t.worktasklist = s.worktasklist := by
  obtain ⟨u, p, id, c, hu, k⟩ := h.getCoTaskWrapper_eq hcur
  have hc : u.sched.slot id = some c := by rw [k.slot, Function.update_self]
  have hw : u.wrappers p = some ⟨id, none⟩ := by rw [k.wrappers, Function.update_self]
  obtain ⟨sched, he, hok, hcur', hslot⟩ := resume_next (s := u.setWrapper p (some ⟨id, some n⟩)) (n := n) k.table k.main hc
    k.runnable (by rw [k.data]) (by rw [k.data]; exact Function.update_self ..)
  refine ⟨{ u.setWrapper p (some ⟨id, some n⟩) with sched, ran := n :: u.ran }, ?_, ?_, congrArg _ k.counts.1,
    k.counts.2.1, k.counts.2.2.1, k.counts.2.2.2⟩
  · simp only [give, hu, Option.bind_eq_bind, Option.bind_some, hw, he]
    rfl
  · have hslot' : sched.slot = Function.update s.sched.slot id (some ⟨id, .running, ⟨p, some n⟩⟩) := by
      rw [hslot, k.data]
      show Function.update u.sched.slot _ _ = _
      rw [k.slot, Function.update_idem]
    refine h.put hok k.own hslot' ?_ k.mem k.all k.fresh ?_ k.freecovec (by simp [hcur]) (.inl ⟨rfl, nofun, hcur'⟩)
    · show Function.update u.wrappers _ _ = _
      rw [k.wrappers, Function.update_idem]
    · intro q
      simp [setWrapper, k.free]

theorem Fits.stay (h : Fits s) {id : Nat} {c : Routine Loop} (hc : s.sched.slot id = some c) (ht : c.data.task ≠ none)
    {st : CoStatus} {sched : Schedule Loop} (hok : ∃ live, sched.Ok live)
    (hslot : sched.slot = Function.update s.sched.slot id (some ⟨id, st, c.data⟩))
    (before : ∀ i, s.sched.curco = some i → i = id)
    (after : st = .running ∧ sched.curco = some id ∨ st = .suspend ∧ sched.curco = none) : Fits { s with sched } := by
  obtain ⟨hmem, hw⟩ := h.owner id c hc
  refine h.put hok (h.own hc) hslot (Function.update_eq_self_iff.mpr hw.symm).symm ?_ h.all h.fresh ?_ h.freecovec before
    (after.imp (fun ha => ⟨ha.1, ht, ha.2⟩) (fun ha => ha))
  · intro q
    refine ⟨.inr, fun hq => hq.elim (fun hq => ?_) (fun hq => hq)⟩
    rw [hq]
    exact hmem
  · intro q
    have hp : c.data.wrapper ∉ s.freecovec := fun hp => ht ((h.idle id c hc).mpr hp)
    refine ⟨fun hq => .inr ⟨fun he => hp (he ▸ hq), hq⟩, fun hq => ?_⟩
    exact hq.elim (fun hq => absurd hq.2 ht) (fun hq => hq.2)

theorem Fits.yield_eq (h : Fits s) : ∃ sched, s.yield = some { s with sched } ∧ Fits { s with sched } := by
  unfold yield
  cases hcur : s.sched.curco with
  | none => exact ⟨s.sched, rfl, h⟩
  | some id =>
    obtain ⟨live, hok⟩ := h.table
    obtain ⟨c, hc, -⟩ := hok.get (hok.current id hcur)
    obtain ⟨sched, he, hok', hcur', hslot, -⟩ := hok.yield_eq hcur c.data
    refine ⟨sched, ?_, h.stay hc (h.busy id c hc hcur) ⟨live, hok'⟩ hslot ?_ (.inr ⟨rfl, hcur'⟩)⟩
    · simp only [Schedule.deref_eq hc, he, Option.bind_eq_bind, Option.bind_some]
    · intro i hi
      rw [hcur] at hi
      exact (Option.some.inj hi).symm

theorem exit_eq {id p : Nat} {w : Wrapper} (hok : ∃ live, s.sched.Ok live) (hcur : s.sched.curco = some id)
    (hw : s.wrappers p = some w) :
    ∃ sched,
      s.exit p = some ({ s with sched, alltaskwrapperset := s.alltaskwrapperset.erase p }.setWrapper p none) ∧
      (∃ live, sched.Ok live) ∧ sched.curco = none ∧ sched.slot = Function.update s.sched.slot id none := by
  obtain ⟨live, hok⟩ := hok
  obtain ⟨sched, he, hok', hcur', hslot, -⟩ := hok.ret_eq hcur
  refine ⟨sched, ?_, ⟨_, hok'⟩, hcur', hslot⟩
  simp only [exit, hw, he, Option.bind_eq_bind, Option.bind_some]

theorem Fits.complete_eq (h : Fits s) :
    ∃ t, s.complete = some t ∧ Fits t ∧ t.ran = s.ran ∧ t.submitted = s.submitted ∧ t.handed = s.handed ∧
      t.worktasklist = s.worktasklist := by
  unfold complete
  cases hcur : s.sched.curco with
  | none => exact ⟨s, rfl, h, rfl, rfl, rfl, rfl⟩
  | some id =>
    have before : ∀ i, s.sched.curco = some i → i = id := by
      intro i hi
      rw [hcur] at hi
      exact (Option.some.inj hi).symm
    obtain ⟨live, hok⟩ := h.table
    obtain ⟨c, hc, -⟩ := hok.get (hok.current id hcur)
    obtain ⟨hmem, hw⟩ := h.owner id c hc
    have ht := h.busy id c hc hcur
    have hp : c.data.wrapper ∉ s.freecovec := fun hp => ht ((h.idle id c hc).mpr hp)
    simp only [Schedule.deref_eq hc, Option.bind_eq_bind, Option.bind_some]
    by_cases hmax : maxReserveCoroutine ≤ s.alltaskwrapperset.length
    · obtain ⟨sched, he, hok', hcur', hslot⟩ := exit_eq h.table hcur hw
      rw [if_pos hmax]
      exact ⟨_, he, h.drop hc ht hok' hslot rfl rfl rfl rfl before hcur', rfl, rfl, rfl, rfl⟩
    · obtain ⟨sched, he, hok', hcur', hslot, -⟩ := hok.yield_eq hcur ⟨c.data.wrapper, none⟩
      rw [if_neg hmax]
      refine ⟨{ s with sched, freecovec := c.data.wrapper :: s.freecovec }.setWrapper c.data.wrapper (some ⟨id, none⟩), ?_,
        h.put ⟨_, hok'⟩ (h.own hc) hslot rfl ?_ h.all h.fresh ?_ (List.nodup_cons.mpr ⟨hp, h.freecovec⟩) before
          (.inr ⟨rfl, hcur'⟩), rfl, rfl, rfl, rfl⟩
      · simp only [hw, he, Option.bind_some]
      · intro q
        refine ⟨.inr, fun hq => hq.elim (fun hq => ?_) (fun hq => hq)⟩
        rw [hq]
        exact hmem
      · intro q
        show q ∈ c.data.wrapper :: s.freecovec ↔ _
        rw [List.mem_cons]
        by_cases hq : q = c.data.wrapper
        · simp [hq]
        · simp [hq]

/-- A coroutine in a task goes on when it is resumed; one that has none ends, and its wrapper is still in
`gfreecovec`. -/
theorem Fits.resume_eq (h : Fits s) (hcur : s.sched.curco = none) (co_id : Int) :
    (∃ sched, s.resume co_id = some { s with sched } ∧ Fits { s with sched } ∧
      ∀ p ∈ s.freecovec, ∀ w, s.wrappers p = some w → (w.co_id : Int) ≠ co_id) ∨
    ∃ t, s.resume co_id = some t ∧
      ∃ p ∈ s.freecovec, (∃ w, s.wrappers p = some w ∧ (w.co_id : Int) = co_id) ∧ p ∈ t.freecovec ∧ t.wrappers p = none := by
  obtain ⟨live, hok⟩ := h.table
  rcases hok.resume_cases co_id with ⟨he, hno⟩ | ⟨id, c, sched, hid, -, -, hc, -, he, hok', hcur', hslot, -⟩
  · left
    refine ⟨s.sched, ?_, h, fun p hp w hw hid => ?_⟩
    · simp only [resume, he, Option.bind_eq_bind, Option.bind_some, hcur]
    · obtain ⟨i, c, hc, rfl⟩ := h.owned p (h.free p hp)
      rw [(h.owner i c hc).2] at hw
      cases hw
      refine hno i c hid.symm hcur hc (.inl ?_)
      rw [h.status i c hc, hcur, if_neg nofun]
  · have hderef : sched.deref id = some { c with status := .running } :=
      Schedule.deref_eq (by rw [hslot, Function.update_self])
    have hw := (h.owner id c hc).2
    cases ht : c.data.task with
    | some n =>
      left
      have hci := hok.ids id c hc
      refine ⟨sched, ?_, h.stay hc (by simp [ht]) ⟨_, hok'⟩ (by rw [hslot, hci]) (by simp [hcur]) (.inl ⟨rfl, hcur'⟩), ?_⟩
      · simp only [resume, he, Option.bind_eq_bind, Option.bind_some, hcur', hderef, ht]
      · intro p hp w hwp hw'
        obtain ⟨i, d, hd, rfl⟩ := h.owned p (h.free p hp)
        rw [(h.owner i d hd).2] at hwp
        cases hwp
        obtain rfl : i = id := Int.ofNat.inj (hw'.trans hid)
        rw [hd] at hc
        cases hc
        rw [(h.idle i c hd).mpr hp] at ht
        cases ht
    | none =>
      right
      rw [ht] at hw
      obtain ⟨last, he', -⟩ := exit_eq (s := { s with sched }) ⟨_, hok'⟩ hcur' hw
      refine ⟨{ s with
        sched := last, alltaskwrapperset := s.alltaskwrapperset.erase c.data.wrapper }.setWrapper c.data.wrapper none,
        ?_, c.data.wrapper, (h.idle id c hc).mp ht, ⟨_, hw, hid.symm⟩, (h.idle id c hc).mp ht, Function.update_self ..⟩
      simp only [resume, he, Option.bind_eq_bind, Option.bind_some, hcur', hderef, ht, next, hw]
      exact he'

theorem destroyAll_eq (wrappers : Nat → Option Wrapper) (ps : List Nat) (hps : ∀ p ∈ ps, ∃ w, wrappers p = some w) :
    ∀ sched : Schedule Loop, (∃ live, sched.Ok live) → sched.curco = none →
      ∃ t, destroyAll wrappers ps sched = some t ∧ (∃ live, t.Ok live) ∧ t.curco = none ∧
        ∀ id c, t.slot id = some c →
          sched.slot id = some c ∧ ∀ p ∈ ps, ∀ w, wrappers p = some w → w.co_id ≠ id := by
  induction ps with
  | nil => exact fun sched hok hcur => ⟨sched, rfl, hok, hcur, fun id c hc => ⟨hc, nofun⟩⟩
  | cons p ps ih =>
    intro sched hok hcur
    obtain ⟨w, hw⟩ := hps p List.mem_cons_self
    obtain ⟨live, hok⟩ := hok
    have hone : ∃ r, sched.destroy w.co_id = some r ∧ (∃ live, r.1.Ok live) ∧ r.1.curco = none ∧
        ∀ id c, r.1.slot id = some c → sched.slot id = some c ∧ w.co_id ≠ id := by
      rcases hok.destroy_cases w.co_id with ⟨he, hno⟩ | ⟨id, t, hid, -, -, he, hok', hcur', hslot, -⟩
      · refine ⟨_, he, ⟨live, hok⟩, hcur, fun id c hc => ⟨hc, fun hid => ?_⟩⟩
        have hl : id ∈ live := (hok.slot id).mpr (by rw [hc]; rfl)
        have hcur' := hno id (congrArg Int.ofNat hid) hl
        rw [hcur] at hcur'
        cases hcur'
      · obtain rfl : w.co_id = id := Int.ofNat.inj hid
        refine ⟨_, he, ⟨_, hok'⟩, hcur'.trans hcur, fun i c hc => ?_⟩
        rw [hslot] at hc
        by_cases hi : i = w.co_id
        · rw [hi, Function.update_self] at hc
          cases hc
        · rw [Function.update_of_ne hi] at hc
          exact ⟨hc, fun he => hi he.symm⟩
    obtain ⟨r, he, hok₁, hcur₁, h₁⟩ := hone
    obtain ⟨t, ht, hok₂, hcur₂, h₂⟩ := ih (fun q hq => hps q (List.mem_cons_of_mem _ hq)) r.1 hok₁ hcur₁
    refine ⟨t, ?_, hok₂, hcur₂, fun id c hc => ?_⟩
    · rw [destroyAll, List.foldlM_cons]
      simp only [hw, he, Option.bind_eq_bind, Option.bind_some]
      exact ht
    · obtain ⟨hc, hps'⟩ := h₂ id c hc
      obtain ⟨hc, hp⟩ := h₁ id c hc
      refine ⟨hc, fun q hq v hv => ?_⟩
      rcases List.mem_cons.mp hq with rfl | hq
      · rw [hw] at hv
        cases hv
        exact hp
      · exact hps' q hq v hv

theorem Fits.clrTask_eq (h : Fits s) (hcur : s.sched.curco = none) :
    ∃ sched, s.clrTask = some { s with sched, alltaskwrapperset := [], worktasklist := [] } ∧
      (∃ live, sched.Ok live) ∧ ∀ id, sched.slot id = none := by
  have hps : ∀ p ∈ s.alltaskwrapperset, ∃ w, s.wrappers p = some w := by
    intro p hp
    obtain ⟨id, c, hc, rfl⟩ := h.owned p hp
    exact ⟨_, (h.owner id c hc).2⟩
  obtain ⟨sched, he, hok, -, hslot⟩ := destroyAll_eq s.wrappers _ hps s.sched h.table hcur
  refine ⟨sched, ?_, hok, fun id => Option.eq_none_iff_forall_ne_some.mpr fun c hc => ?_⟩
  · simp only [clrTask, main_iff.mpr hcur, if_pos, he, Option.bind_eq_bind, Option.bind_some]
  · obtain ⟨hc, hno⟩ := hslot id c hc
    obtain ⟨hp, hw⟩ := h.owner id c hc
    exact hno _ hp _ hw rfl

/-! ## Counting the calls of the tasks -/

theorem Counted.congr (h : Counted s) (hr : t.ran = s.ran) (hs : t.submitted = s.submitted) (hh : t.handed = s.handed)
    (hl : t.worktasklist = s.worktasklist) : Counted t := by
  obtain ⟨h1, h2, h3, h4, h5⟩ := h
  rw [← hr, ← hs, ← hh, ← hl] at *
  exact ⟨h1, h2, h3, h4, h5⟩

theorem Counted.addTask (h : Counted s) : Counted s.addTask := by
  obtain ⟨h1, h2, h3, h4, h5⟩ := h
  refine ⟨h1, fun n hn => Nat.lt_succ_of_lt (h2 n hn), h3, ?_, ?_⟩
  · refine List.nodup_append.mpr ⟨h4, List.nodup_singleton _, fun n hn m hm he => ?_⟩
    rw [he, List.mem_singleton.mp hm] at hn
    exact Nat.lt_irrefl _ (h5 _ hn).1
  · intro n hn
    show n < s.submitted + 1 ∧ _
    rcases List.mem_append.mp hn with hn | hn
    · exact ⟨Nat.lt_succ_of_lt (h5 n hn).1, (h5 n hn).2⟩
    · rw [List.mem_singleton.mp hn]
      exact ⟨Nat.lt_succ_self _, fun hr => Nat.lt_irrefl _ (h2 _ hr)⟩

theorem Counted.give (h : Counted s) {n : Nat} (hn : n ∉ s.ran) (hlt : n < t.submitted) (hs : s.submitted ≤ t.submitted)
    (hran : t.ran = n :: s.ran) (hh : t.handed = n :: s.handed) (hl : t.worktasklist.Nodup)
    (hw : ∀ m ∈ t.worktasklist, m ≠ n ∧ m ∈ s.worktasklist) : Counted t := by
  refine ⟨hran ▸ List.nodup_cons.mpr ⟨hn, h.ran⟩, fun m hm => ?_, fun m hm => ?_, hl, fun m hm => ?_⟩
  · rw [hran] at hm
    rcases List.mem_cons.mp hm with rfl | hm
    · exact hlt
    · exact Nat.lt_of_lt_of_le (h.old m hm) hs
  · rw [hh] at hm
    rw [hran]
    rcases List.mem_cons.mp hm with rfl | hm
    · exact List.mem_cons_self
    · exact List.mem_cons_of_mem _ (h.handed m hm)
  · obtain ⟨hne, hm⟩ := hw m hm
    rw [hran]
    refine ⟨Nat.lt_of_lt_of_le (h.later m hm).1 hs, fun hr => ?_⟩
    exact (List.mem_cons.mp hr).elim hne (h.later m hm).2

/-! ## Runs -/

/-- What is promised of every state: a task that has been handed over has been called once, the free wrappers are those
of coroutines that wait for a task, each once, and every wrapper has its coroutine. -/
structure Correct (s : Tasks) : Prop where
  once : ∀ n ∈ s.handed, s.ran.count n = 1
  free : ∀ p ∈ s.freecovec, ∃ id c, s.wrappers p = some ⟨id, none⟩ ∧ s.sched.slot id = some c ∧ c.status = .suspend ∧
    c.data = ⟨p, none⟩
  freecovec : s.freecovec.Nodup
  all : ∀ p ∈ s.alltaskwrapperset, ∃ w c, s.wrappers p = some w ∧ s.sched.slot w.co_id = some c ∧ c.data.wrapper = p

/-- The calls that the wrappers stand: `doTask(func, p)` comes from the main routine, and from there no coroutine that
waits for a task is resumed, and `clrTask` is called only when none does. -/
def Allowed (s : Tasks) : Call → Prop
  | .doTaskFunc => s.main = true
  | .resumeTask co_id => s.main = true → ∀ p ∈ s.freecovec, ∀ w, s.wrappers p = some w → (w.co_id : Int) ≠ co_id
  | .clrTask => s.main = true → s.freecovec = []
  | _ => True

/-- The call can be made, and leaves a state as promised. -/
def Good (s : Option Tasks) : Prop := ∃ t, s = some t ∧ Correct t

theorem correct (h : Fits s) (hc : Counted s) : Correct s where
  once n hn := List.count_eq_one_of_mem hc.ran (hc.handed n hn)
  free p hp := by
    obtain ⟨id, c, hs, rfl⟩ := h.owned p (h.free p hp)
    have ht := (h.idle id c hs).mpr hp
    have hw := (h.owner id c hs).2
    have hst := h.status id c hs
    rw [if_neg fun hcur => h.busy id c hs hcur ht] at hst
    rw [ht] at hw
    exact ⟨id, c, hw, hs, hst, by rw [← ht]⟩
  freecovec := h.freecovec
  all p hp := by
    obtain ⟨id, c, hs, rfl⟩ := h.owned p hp
    exact ⟨_, c, (h.owner id c hs).2, hs, rfl⟩

/-- A call from the main routine leaves a state that fits, or it was not allowed and breaks the promise. -/
theorem step_main (h : Fits s) (hc : Counted s) (hcur : s.sched.curco = none) (e : Call) :
    (Allowed s e ∧ ∃ t, s.step e = some t ∧ Fits t ∧ Counted t) ∨ ¬ Allowed s e ∧ ¬ Good (s.step e) := by
  have hm := main_iff.mpr hcur
  cases e with
  | addTask => exact .inl ⟨trivial, _, rfl, { h with }, hc.addTask⟩
  | doTask =>
    left
    refine ⟨trivial, ?_⟩
    cases hl : s.worktasklist with
    | nil => exact ⟨s, by simp only [step, doTask, hm, if_true, hl], h, hc⟩
    | cons n l =>
      have hn := hc.later n (hl ▸ List.mem_cons_self)
      have hnd := hc.waiting
      rw [hl, List.nodup_cons] at hnd
      have h' : Fits { s with worktasklist := l, handed := n :: s.handed } := { h with }
      obtain ⟨t, he, hf, hr, hs, hh, hw⟩ := h'.give_eq hcur n
      refine ⟨t, by simp only [step, doTask, hm, if_true, hl, he], hf,
        hc.give hn.2 (hs ▸ hn.1) (Nat.le_of_eq hs.symm) hr hh (hw ▸ hnd.2) fun m hm => ?_⟩
      rw [hw] at hm
      exact ⟨fun hmn => hnd.1 (hmn ▸ hm), hl ▸ List.mem_cons_of_mem _ hm⟩
  | doTaskFunc =>
    left
    have h' : Fits { s with submitted := s.submitted + 1, handed := s.submitted :: s.handed } := { h with }
    obtain ⟨t, he, hf, hr, hs, hh, hw⟩ := h'.give_eq hcur s.submitted
    refine ⟨hm, t, by simp only [step, doTaskFunc, hm, if_true, he], hf,
      hc.give (fun hr => Nat.lt_irrefl _ (hc.old _ hr)) (hs ▸ Nat.lt_succ_self _) (hs ▸ Nat.le_succ _) hr hh
        (hw ▸ hc.waiting) fun m hm => ?_⟩
    rw [hw] at hm
    exact ⟨fun hmn => Nat.lt_irrefl _ (hmn ▸ (hc.later m hm).1), hm⟩
  | yield =>
    obtain ⟨sched, he, hf⟩ := h.yield_eq
    exact .inl ⟨trivial, _, he, hf, hc.congr rfl rfl rfl rfl⟩
  | complete =>
    obtain ⟨t, he, hf, hr, hs, hh, hw⟩ := h.complete_eq
    exact .inl ⟨trivial, t, he, hf, hc.congr hr hs hh hw⟩
  | resumeTask co_id =>
    have hst : s.step (.resumeTask co_id) = s.resume co_id := if_pos hm
    rw [hst]
    rcases h.resume_eq hcur co_id with ⟨sched, he, hf, hno⟩ | ⟨t, he, p, hp, ⟨w, hw, hid⟩, hp', hw'⟩
    · exact .inl ⟨fun _ => hno, _, he, hf, hc.congr rfl rfl rfl rfl⟩
    · -- The wrapper has been freed, and `gfreecovec` still has it.
      right
      refine ⟨fun ha => ha hm p hp w hw hid, fun ⟨u, hu, hgood⟩ => ?_⟩
      rw [he] at hu
      cases hu
      obtain ⟨id, c, hw, -⟩ := hgood.free p hp'
      rw [hw'] at hw
      cases hw
  | clrTask =>
    obtain ⟨sched, he, hok, hslot⟩ := h.clrTask_eq hcur
    have hst : s.step .clrTask = s.clrTask := rfl
    rw [hst, he]
    cases hf : s.freecovec with
    | nil =>
      left
      refine ⟨fun _ => hf, _, rfl, ?_, hc.ran, hc.old, hc.handed, List.nodup_nil, nofun⟩
      exact ⟨hok, by simp [hslot], nofun, by simp [hslot], by simp [hslot], by simp [hslot], nofun,
        List.nodup_nil, List.nodup_nil, nofun⟩
    | cons p l =>
      -- The coroutine of the free wrapper is gone.
      right
      refine ⟨fun ha => ?_, fun ⟨u, hu, hgood⟩ => ?_⟩
      · have hnil := ha hm
        rw [hf] at hnil
        cases hnil
      · cases hu
        obtain ⟨id, c, -, hs, -⟩ := hgood.free p List.mem_cons_self
        rw [hslot] at hs
        cases hs

/-- From inside a task only `doTask(func, p)` breaks the promise: its task is lost. -/
theorem step_inside (h : Fits s) (hc : Counted s) (hcur : s.sched.curco ≠ none) (e : Call) :
    (Allowed s e ∧ ∃ t, s.step e = some t ∧ Fits t ∧ Counted t) ∨ ¬ Allowed s e ∧ ¬ Good (s.step e) := by
  have hm : ¬ s.main = true := fun hm => hcur (main_iff.mp hm)
  cases e with
  | addTask => exact .inl ⟨trivial, _, rfl, { h with }, hc.addTask⟩
  | doTask => exact .inl ⟨trivial, s, if_neg hm, h, hc⟩
  | doTaskFunc =>
    right
    refine ⟨hm, fun ⟨u, hu, hgood⟩ => ?_⟩
    have he : s.step .doTaskFunc = some { s with submitted := s.submitted + 1, handed := s.submitted :: s.handed } :=
      if_neg hm
    rw [he] at hu
    cases hu
    have hone := hgood.once s.submitted List.mem_cons_self
    have hr : s.submitted ∈ s.ran := List.count_pos_iff.mp (by rw [hone]; exact Nat.one_pos)
    exact Nat.lt_irrefl _ (hc.old _ hr)
  | yield =>
    obtain ⟨sched, he, hf⟩ := h.yield_eq
    exact .inl ⟨trivial, _, he, hf, hc.congr rfl rfl rfl rfl⟩
  | complete =>
    obtain ⟨t, he, hf, hr, hs, hh, hw⟩ := h.complete_eq
    exact .inl ⟨trivial, t, he, hf, hc.congr hr hs hh hw⟩
  | resumeTask co_id => exact .inl ⟨fun h' => absurd h' hm, s, if_neg hm, h, hc⟩
  | clrTask => exact .inl ⟨fun h' => absurd h' hm, s, if_neg hm, h, hc⟩

theorem step_cases (h : Fits s) (hc : Counted s) (e : Call) :
    (Allowed s e ∧ ∃ t, s.step e = some t ∧ Fits t ∧ Counted t) ∨ ¬ Allowed s e ∧ ¬ Good (s.step e) := by
  by_cases hcur : s.sched.curco = none
  · exact step_main h hc hcur e
  · exact step_inside h hc hcur e

def stepFrom (s : Option Tasks) (e : Call) : Option Tasks := s.bind fun s => s.step e

def run (calls : List Call) : Option Tasks := calls.foldl stepFrom (some init)

/-- After every call of a run the state is as promised exactly when all its calls are allowed. -/
theorem tasks_correct_iff (calls : List Call) :
    (∀ t e, t ++ [e] <+: calls → Good (run (t ++ [e]))) ↔
      ∀ t e, t ++ [e] <+: calls → ∀ s, run t = some s → Allowed s e := by
  apply Runs.good_foldl_iff (I := fun s => Fits s ∧ Counted s)
  · exact ⟨fits_init, counted_init⟩
  · exact fun s h => ⟨s, rfl, correct h.1 h.2⟩
  · exact fun s e h => step_cases h.1 h.2 e

/-- A first task leaves a free wrapper, `clrTask` destroys the wrapper's coroutine, and the next task is lost. -/
theorem clrTask_loses :
    (∃ s, run [.doTaskFunc, .complete, .clrTask, .doTaskFunc] = some s ∧ s.handed = [1, 0] ∧ s.ran = [0]) ∧
      ¬ Good (run [.doTaskFunc, .complete, .clrTask, .doTaskFunc]) := by
  have hrun : (run [.doTaskFunc, .complete, .clrTask, .doTaskFunc]).map (fun s => (s.handed, s.ran)) =
      some ([1, 0], [0]) := by decide +kernel
  obtain ⟨s, hs, he⟩ := Option.map_eq_some_iff.mp hrun
  obtain ⟨hh, hr⟩ : s.handed = [1, 0] ∧ s.ran = [0] := Prod.ext_iff.mp he
  refine ⟨⟨s, hs, hh, hr⟩, fun ⟨t, ht, hgood⟩ => ?_⟩
  rw [hs] at ht
  cases ht
  have hone := hgood.once 1 (by rw [hh]; decide)
  rw [hr] at hone
  revert hone
  decide

end GlobalServer.Coroutine.Tasks
