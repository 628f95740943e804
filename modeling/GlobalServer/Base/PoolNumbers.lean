import GlobalServer.Base.NewOncePool
import GlobalServer.Base.ObjectPool

/-!
# The blocks of a pool and its numbered objects

`NewOncePool` numbers its objects as they are made and has no addresses. A pool
in memory does the same once each of its blocks is given a number. A block that
has been freed and comes back from `malloc` gets a new one.
-/

namespace GlobalServer

namespace NewOncePool

variable {α : Type} {pool : NewOncePool α} {new : α} {p : Nat} {rest : List Nat}

theorem alloc_nil (h : pool.listhead = []) : pool.alloc new = (pool.mallocs, { pool with
    numalloc := pool.numalloc + 1, mallocs := pool.mallocs + 1
    object := Function.update pool.object pool.mallocs new }) := by
  rw [alloc, h]

theorem alloc_cons (h : pool.listhead = p :: rest) : pool.alloc new = (p, { pool with listhead := rest }) := by
  rw [alloc, h]

end NewOncePool

namespace Pools.NewOncePool

open Bytes

variable {α : Type} {garbage : Option Nat} {number : Nat → Nat} {s t : Users (ObjectInfo (Block α))}
  {free free' : List Nat} {pool pool' : GlobalServer.NewOncePool α} {p : Nat}

/-- Each block's number is that of its object, and the free blocks are the free objects in their order. -/
structure Numbered (garbage : Option Nat) (number : Nat → Nat) (s : Users (ObjectInfo (Block α))) (free : List Nat)
    (pool : GlobalServer.NewOncePool α) : Prop where
  fits : Fits (kind garbage) s.info.toObjectPoolInfo s.used free
  numalloc : s.info.numalloc = pool.numalloc
  listhead : pool.listhead = free.map number
  object : ∀ a b, s.info.heap.cell a = some b → pool.object (number a) = b.object
  lt : ∀ a, s.info.heap.cell a ≠ none → number a < pool.mallocs
  injective : ∀ a b, s.info.heap.cell a ≠ none → s.info.heap.cell b ≠ none → number a = number b → a = b

namespace Numbered

theorem keep (h : Numbered garbage number s free pool) (hfits : Fits (kind garbage) t.info.toObjectPoolInfo t.used free')
    (hnum : t.info.numalloc = pool'.numalloc) (hlist : pool'.listhead = free'.map number)
    (hobject : pool'.object = pool.object) (hmallocs : pool'.mallocs = pool.mallocs)
    (hcell : ∀ a c, t.info.heap.cell a = some c → ∃ b, s.info.heap.cell a = some b ∧ b.object = c.object) :
    Numbered garbage number t free' pool' := by
  have hblock : ∀ a, t.info.heap.cell a ≠ none → s.info.heap.cell a ≠ none := by
    intro a ha
    obtain ⟨c, hc⟩ := Option.ne_none_iff_exists'.mp ha
    obtain ⟨b, hb, -⟩ := hcell a c hc
    simp [hb]
  refine ⟨hfits, hnum, hlist, fun a c hc => ?_, fun a ha => ?_, fun a b ha hb => ?_⟩
  · obtain ⟨b, hb, he⟩ := hcell a c hc
    rw [hobject, h.object a b hb, he]
  · rw [hmallocs]
    exact h.lt a (hblock a ha)
  · exact h.injective a b (hblock a ha) (hblock b hb)

theorem alloc (h : Numbered garbage number s free pool) (at' : Nat) (new : α)
    (hlt : s.info.listhead = none → s.info.numalloc + 1 < 2 ^ 31) :
    ∃ p info', NewOncePool.alloc (kind garbage) s.info at' new = some (p, info') ∧
      Numbered garbage (Function.update number p (pool.alloc new).1) { info := info', used := p :: s.used } free.tail
        (pool.alloc new).2 := by
  obtain ⟨p, info', halloc, hp, hfits, hother, hcase⟩ := h.fits.alloc at' new hlt
  have hnum := h.fits.numalloc
  have hnum' := hfits.numalloc
  refine ⟨p, { info' with numusing := i32 (s.info.numusing + 1) }, by rw [NewOncePool.alloc, halloc]; rfl, ?_⟩
  rcases hcase with ⟨rfl, hnew⟩ | ⟨b, hfree, hold, hnew⟩
  · rw [GlobalServer.NewOncePool.alloc_nil h.listhead]
    have hblock : ∀ a, a ≠ p → info'.heap.cell a ≠ none → number a < pool.mallocs := by
      intro a ha hc
      rw [hother a ha] at hc
      exact h.lt a hc
    refine ⟨hfits, ?_, h.listhead, fun a b hb => ?_, fun a ha => ?_, fun a b ha hb he => ?_⟩
    · have halloc := h.numalloc
      rw [List.tail_nil, List.nil_append, List.length_cons] at hnum'
      rw [List.nil_append] at hnum
      show info'.numalloc = (pool.numalloc + 1 : Nat)
      omega
    · rcases eq_or_ne a p with rfl | hne
      · obtain rfl := Option.some.inj (hnew.symm.trans hb)
        simp [kind]
      · have hc := hblock a hne (by simp [show info'.heap.cell a = some b from hb])
        rw [Function.update_of_ne hne]
        show Function.update pool.object pool.mallocs new (number a) = b.object
        rw [Function.update_of_ne (Nat.ne_of_lt hc)]
        exact h.object a b ((hother a hne).symm.trans hb)
    · show Function.update number p pool.mallocs a < pool.mallocs + 1
      rcases eq_or_ne a p with rfl | hne
      · rw [Function.update_self]
        exact Nat.lt_succ_self _
      · rw [Function.update_of_ne hne]
        exact Nat.lt_succ_of_lt (hblock a hne ha)
    · by_cases hap : a = p <;> by_cases hbp : b = p
      · rw [hap, hbp]
      · rw [hap, Function.update_self, Function.update_of_ne hbp] at he
        exact absurd he.symm (Nat.ne_of_lt (hblock b hbp hb))
      · rw [hbp, Function.update_self, Function.update_of_ne hap] at he
        exact absurd he (Nat.ne_of_lt (hblock a hap ha))
      · rw [Function.update_of_ne hap, Function.update_of_ne hbp] at he
        exact h.injective a b (by rw [← hother a hap]; exact ha) (by rw [← hother b hbp]; exact hb) he
  · have hlist : pool.listhead = number p :: free.tail.map number := by rw [h.listhead, hfree]; rfl
    rw [GlobalServer.NewOncePool.alloc_cons hlist, Function.update_eq_self]
    refine h.keep hfits ?_ rfl rfl rfl fun a c hc => ?_
    · have halloc := h.numalloc
      have hlen := congrArg List.length hfree
      simp only [List.length_append, List.length_cons] at hnum hnum' hlen
      show info'.numalloc = (pool.numalloc : Nat)
      omega
    · rcases eq_or_ne a p with rfl | hne
      · rw [hnew] at hc
        cases hc
        exact ⟨b, hold, rfl⟩
      · exact ⟨c, by rw [← hother a hne]; exact hc, rfl⟩

theorem dealloc (h : Numbered garbage number s free pool) (maxAllocNum : Nat) (hp : p ∈ s.used) :
    ∃ info' free', NewOncePool.dealloc (kind garbage) maxAllocNum s.info p = some info' ∧
      Numbered garbage number { info := info', used := s.used.erase p } free' (pool.dealloc maxAllocNum (number p)) := by
  obtain ⟨info', hd, hfits, hother, hself⟩ := h.fits.dealloc maxAllocNum hp
  have hnum := h.fits.numalloc
  have hnum' := hfits.numalloc
  have halloc := h.numalloc
  have hpos := List.length_pos_of_mem hp
  have hlen := List.length_erase_of_mem hp
  have hlimit : s.info.numalloc > maxAllocNum ↔ maxAllocNum < pool.numalloc := by
    rw [halloc]
    exact Int.ofNat_lt
  refine ⟨{ info' with numusing := i32 (s.info.numusing - 1) },
    if s.info.numalloc > maxAllocNum then free else p :: free, by rw [NewOncePool.dealloc, hd]; rfl, ?_⟩
  refine h.keep hfits ?_ ?_ (by simp) ?_ fun a c hc => ?_
  · show info'.numalloc = _
    unfold GlobalServer.NewOncePool.dealloc
    split at hnum' <;> rename_i hgt
    · rw [if_pos (hlimit.mp hgt)]
      simp only [List.length_append] at hnum hnum'
      show info'.numalloc = (pool.numalloc - 1 : Nat)
      omega
    · rw [if_neg fun hlt => hgt (hlimit.mpr hlt)]
      simp only [List.length_append, List.length_cons] at hnum hnum'
      show info'.numalloc = (pool.numalloc : Nat)
      omega
  · unfold GlobalServer.NewOncePool.dealloc
    by_cases hgt : maxAllocNum < pool.numalloc
    · rw [if_pos hgt, if_pos (hlimit.mpr hgt)]
      exact h.listhead
    · rw [if_neg hgt, if_neg fun hlt => hgt (hlimit.mp hlt), List.map_cons, ← h.listhead]
  · unfold GlobalServer.NewOncePool.dealloc
    split <;> rfl
  · rcases eq_or_ne a p with rfl | hne
    · obtain ⟨b, hb, rfl⟩ := hself c hc
      exact ⟨b, hb, rfl⟩
    · exact ⟨c, by rw [← hother a hne]; exact hc, rfl⟩

theorem write (h : Numbered garbage number s free pool) (hp : p ∈ s.used) (x : α) :
    ∃ info', NewOncePool.write (kind garbage) s.info p x = some info' ∧
      Numbered garbage number { s with info := info' } free (pool.set (number p) x) := by
  obtain ⟨b, heap, hb, rfl, hw, hfits⟩ := h.fits.write hp x
  have hblock : ∀ a, (s.info.heap.put p ((kind garbage).store x b)).cell a ≠ none → s.info.heap.cell a ≠ none := by
    intro a ha
    rcases eq_or_ne a p with rfl | hne
    · simp [hb]
    · rwa [Heap.put_of_ne hne] at ha
  refine ⟨{ s.info with heap := s.info.heap.put p ((kind garbage).store x b) },
    by rw [NewOncePool.write, hw]; rfl, hfits, h.numalloc, h.listhead, fun a c hc => ?_, fun a ha => h.lt a (hblock a ha),
    fun a c ha hc => h.injective a c (hblock a ha) (hblock c hc)⟩
  rcases eq_or_ne a p with rfl | hne
  · rw [GlobalServer.NewOncePool.set_object_self]
    obtain rfl := Option.some.inj (Heap.put_self.symm.trans hc)
    rfl
  · replace hc : s.info.heap.cell a = some c := (Heap.put_of_ne hne).symm.trans hc
    have hnumber : number a ≠ number p := fun he => hne (h.injective a p (by simp [hc]) (by simp [hb]) he)
    rw [GlobalServer.NewOncePool.set_object_of_ne hnumber]
    exact h.object a c hc

end Numbered

/-! ## Runs -/

/-- A pool in memory, the pool of numbered objects beside it, and the numbers. -/
structure Paired (α : Type) where
  users : Users (ObjectInfo (Block α))
  pool : GlobalServer.NewOncePool α
  number : Nat → Nat

def Paired.Agrees (garbage : Option Nat) (c : Paired α) : Prop :=
  ∃ free, Numbered garbage c.number c.users free c.pool

variable (garbage) (maxAllocNum : Nat)

/-- A call to both pools. -/
def pairedStep (c : Paired α) : Op α → Option (Paired α)
  | .alloc at' new => (NewOncePool.alloc (kind garbage) c.users.info at' new).map fun r =>
      { users := { info := r.2, used := r.1 :: c.users.used }, pool := (c.pool.alloc new).2
        number := Function.update c.number r.1 (c.pool.alloc new).1 }
  | .dealloc elem =>
      if elem ∈ c.users.used then
        (NewOncePool.dealloc (kind garbage) maxAllocNum c.users.info elem).map fun info =>
          { c with
            users := { info, used := c.users.used.erase elem }, pool := c.pool.dealloc maxAllocNum (c.number elem) }
      else some c
  | .write elem x =>
      if elem ∈ c.users.used then
        (NewOncePool.write (kind garbage) c.users.info elem x).map fun info =>
          { c with users := { c.users with info }, pool := c.pool.set (c.number elem) x }
      else some c

/-- `new` is in the place of the objects that are not made yet. -/
def pairedRun (new : α) (ops : List (Op α)) : Option (Paired α) :=
  ops.foldl (fun c op => c.bind fun c => pairedStep garbage maxAllocNum c op) (some
    { users := { info := init, used := [] }
      pool := { numalloc := 0, listhead := [], object := fun _ => new, mallocs := 0 }
      number := fun _ => 0 })

variable {garbage maxAllocNum} {c : Paired α}

theorem users_pairedStep (c : Paired α) (op : Op α) :
    (pairedStep garbage maxAllocNum c op).map Paired.users = step (kind garbage) maxAllocNum c.users op := by
  cases op with
  | alloc at' new =>
    rw [pairedStep, step, Option.map_map]
    rfl
  | dealloc p =>
    rw [pairedStep, step]
    split
    · rw [Option.map_map]
      rfl
    · rfl
  | write p x =>
    rw [pairedStep, step]
    split
    · rw [Option.map_map]
      rfl
    · rfl

theorem Paired.Agrees.step (h : c.Agrees garbage) {op : Op α} (ha : Allowed c.users op) :
    ∃ d, pairedStep garbage maxAllocNum c op = some d ∧ d.Agrees garbage := by
  obtain ⟨free, h⟩ := h
  cases op with
  | alloc at' new =>
    obtain ⟨p, info', halloc, h'⟩ := h.alloc at' new ha
    exact ⟨_, by rw [pairedStep, halloc]; rfl, _, h'⟩
  | dealloc p =>
    by_cases hp : p ∈ c.users.used
    · obtain ⟨info', free', hd, h'⟩ := h.dealloc maxAllocNum hp
      exact ⟨_, by rw [pairedStep, if_pos hp, hd]; rfl, free', h'⟩
    · exact ⟨c, if_neg hp, free, h⟩
  | write p x =>
    by_cases hp : p ∈ c.users.used
    · obtain ⟨info', hw, h'⟩ := h.write hp x
      exact ⟨_, by rw [pairedStep, if_pos hp, hw]; rfl, free, h'⟩
    · exact ⟨c, if_neg hp, free, h⟩

/-- As long as the counters can count, the pool in memory does what the pool of numbered objects does. -/
theorem agrees_run (new : α) (ops : List (Op α)) (hall : ∀ t op, t ++ [op] <+: ops →
      ∀ s, run (kind garbage) maxAllocNum t = some s → Allowed s op) :
    ∃ c, pairedRun garbage maxAllocNum new ops = some c ∧ run (kind garbage) maxAllocNum ops = some c.users ∧
      c.Agrees garbage := by
  induction ops using List.reverseRecOn with
  | nil =>
    refine ⟨_, rfl, rfl, [], .init, rfl, rfl, ?_, ?_, ?_⟩
    · intro a b hb
      cases hb
    · intro a ha
      exact absurd rfl ha
    · intro a b ha
      exact absurd rfl ha
  | append_singleton ops op ih =>
    obtain ⟨c, hc, hrun, hagrees⟩ := ih fun t op' ht => hall t op' (ht.trans (List.prefix_append ..))
    have ha := hall ops op (List.prefix_refl _) c.users hrun
    obtain ⟨d, hd, hagrees'⟩ := @Paired.Agrees.step _ garbage maxAllocNum c hagrees op ha
    refine ⟨d, ?_, ?_, hagrees'⟩
    · rw [pairedRun, List.foldl_append, ← pairedRun, hc]
      exact hd
    · rw [run, List.foldl_append, ← run, hrun]
      have husers := @users_pairedStep _ garbage maxAllocNum c op
      rw [hd] at husers
      exact husers.symm

end Pools.NewOncePool

end GlobalServer
