import GlobalServer.Lib.Bytes
import GlobalServer.Lib.Heap
import GlobalServer.Lib.Runs
import Mathlib.Algebra.Group.Int.Defs
import Mathlib.Data.List.Perm.Basic

/-!
# Object pools

`NewOncePool` and `ObjectPool` keep what they get back in a list that runs
through the free blocks themselves. A `NewOncePool` block has a word for it in
front of the object, which stays what it is; an `ObjectPool` block is either an
object or free, and its object is made and destroyed each time.

Both counters are `int`s. `malloc` is taken to give a block that is free, at
an address that the call names.
-/

namespace GlobalServer.Pools

open Bytes

variable {α β : Type}

/-- How a pool lays an object and the link to the next free block out in a block. -/
structure Kind (α β : Type) where
  /-- a block from `malloc` with its object -/
  fresh : α → β
  /-- what is read as the next free block -/
  link : β → Option (Option Nat)
  /-- a free block that is handed out -/
  reuse : α → β → β
  /-- a block that is put into the free list -/
  giveBack : Option Nat → β → β
  /-- the user of the block writes to the object -/
  store : α → β → β
  link_giveBack : ∀ n b, link (giveBack n b) = some n

/-- `ObjectPoolInfo` -/
structure ObjectPoolInfo (β : Type) where
  numalloc : Int
  listhead : Option Nat
  heap : Heap β
  numalloc_lt : numalloc < 2 ^ 31

namespace ObjectPoolInfo

theorem zero_lt_limit : (0 : Int) < 2 ^ 31 := by decide

def init : ObjectPoolInfo β := { numalloc := 0, listhead := none, heap := .empty, numalloc_lt := zero_lt_limit }

variable (K : Kind α β)

/-- The block that is handed out, and the pool without it. -/
def alloc (info : ObjectPoolInfo β) (at' : Nat) (new : α) : Option (Nat × ObjectPoolInfo β) :=
  match info.listhead with
  | none =>
      let ret := info.heap.place at'
      some (ret, { info with
        heap := info.heap.put ret (K.fresh new), numalloc := i32 (info.numalloc + 1), numalloc_lt := i32_lt _ })
  | some ret => do
      let block ← info.heap.cell ret
      let next ← K.link block
      some (ret, { info with listhead := next, heap := info.heap.put ret (K.reuse new block) })

def dealloc (maxAllocNum : Int) (info : ObjectPoolInfo β) (elem : Nat) : Option (ObjectPoolInfo β) :=
  if info.numalloc > maxAllocNum then
    (info.heap.free elem).map fun heap =>
      { info with heap, numalloc := i32 (info.numalloc - 1), numalloc_lt := i32_lt _ }
  else
    (info.heap.modify elem (K.giveBack info.listhead)).map fun heap => { info with heap, listhead := some elem }

def write (info : ObjectPoolInfo β) (elem : Nat) (x : α) : Option (ObjectPoolInfo β) :=
  (info.heap.modify elem (K.store x)).map fun heap => { info with heap }

end ObjectPoolInfo

/-! ## The two pools -/

namespace ObjectPool

inductive Block (α : Type) where
  | object (x : α)
  | free (next : Option Nat)

def kind : Kind α (Block α) where
  fresh := .object
  link
    | .object _ => none
    | .free next => some next
  reuse x _ := .object x
  giveBack n _ := .free n
  store x _ := .object x
  link_giveBack _ _ := rfl

end ObjectPool

namespace NewOncePool

/-- The word in front of a new object is what `malloc` has left there. -/
structure Block (α : Type) where
  next : Option Nat
  object : α

def kind (garbage : Option Nat) : Kind α (Block α) where
  fresh x := { next := garbage, object := x }
  link b := some b.next
  reuse _ b := b
  giveBack n b := { b with next := n }
  store x b := { b with object := x }
  link_giveBack _ _ := rfl

/-- `ObjectInfo` -/
structure ObjectInfo (β : Type) extends ObjectPoolInfo β where
  numusing : Int

variable (K : Kind α β)

def alloc (info : ObjectInfo β) (at' : Nat) (new : α) : Option (Nat × ObjectInfo β) :=
  (info.toObjectPoolInfo.alloc K at' new).map fun r => (r.1, { r.2 with numusing := i32 (info.numusing + 1) })

def dealloc (maxAllocNum : Int) (info : ObjectInfo β) (elem : Nat) : Option (ObjectInfo β) :=
  (info.toObjectPoolInfo.dealloc K maxAllocNum elem).map fun r => { r with numusing := i32 (info.numusing - 1) }

end NewOncePool

/-! ## What the pool has -/

def next (K : Kind α β) (heap : Heap β) (a : Nat) : Option (Option Nat) := (heap.cell a).bind K.link

theorem next_congr {K : Kind α β} {heap heap' : Heap β} {a : Nat} (h : heap'.cell a = heap.cell a) :
    next K heap' a = next K heap a := by
  rw [next, next, h]

/-- The pool's free blocks are `free`, in the order of the list, and its users have those in `used`. -/
structure Fits (K : Kind α β) (info : ObjectPoolInfo β) (used free : List Nat) : Prop where
  chain : Chain (next K info.heap) info.listhead free
  nodup : (free ++ used).Nodup
  blocks : ∀ a, info.heap.cell a ≠ none ↔ a ∈ free ++ used
  numalloc : info.numalloc = (free ++ used).length

namespace Fits

variable {K : Kind α β} {info : ObjectPoolInfo β} {used free : List Nat}

theorem init : Fits K ObjectPoolInfo.init [] [] :=
  ⟨rfl, List.nodup_nil, fun a => by simp [ObjectPoolInfo.init, Heap.empty], rfl⟩

theorem cell (h : Fits K info used free) {a : Nat} (ha : a ∈ free ++ used) : ∃ b, info.heap.cell a = some b :=
  Option.ne_none_iff_exists'.mp ((h.blocks a).mpr ha)

theorem not_mem_of_mem_used (h : Fits K info used free) {a : Nat} (ha : a ∈ used) : a ∉ free := fun hf =>
  (List.nodup_append.mp h.nodup).2.2 a hf a ha rfl

theorem alloc (h : Fits K info used free) (at' : Nat) (new : α)
    (hlt : info.listhead = none → info.numalloc + 1 < 2 ^ 31) :
    ∃ p info', info.alloc K at' new = some (p, info') ∧ p ∉ used ∧ Fits K info' (p :: used) free.tail ∧
      (∀ a, a ≠ p → info'.heap.cell a = info.heap.cell a) ∧
      (free = [] ∧ info'.heap.cell p = some (K.fresh new) ∨
        ∃ b, free = p :: free.tail ∧ info.heap.cell p = some b ∧ info'.heap.cell p = some (K.reuse new b)) := by
  have hnum := h.numalloc
  cases free with
  | nil =>
    have hhead : info.listhead = none := h.chain
    have hfree := info.heap.cell_place at'
    have hp : info.heap.place at' ∉ used := fun hm => (h.blocks _).mpr hm hfree
    have hcount : i32 (info.numalloc + 1) = info.numalloc + 1 := by
      have hlt := hlt hhead
      rw [i32_of_range] <;> omega
    refine ⟨info.heap.place at', { info with
        heap := info.heap.put (info.heap.place at') (K.fresh new), numalloc := i32 (info.numalloc + 1)
        numalloc_lt := i32_lt _ }, ?_, hp, ⟨hhead, ?_, fun a => ?_, ?_⟩, fun a => Heap.put_of_ne,
      .inl ⟨rfl, Heap.put_self⟩⟩
    · rw [ObjectPoolInfo.alloc, hhead]
    · exact List.nodup_cons.mpr ⟨hp, h.nodup⟩
    · show (info.heap.put _ _).cell a ≠ none ↔ a ∈ _ :: used
      rcases eq_or_ne a (info.heap.place at') with rfl | hne
      · simp
      · rw [Heap.put_of_ne hne, h.blocks a, List.mem_cons, List.nil_append]
        simp [hne]
    · show i32 (info.numalloc + 1) = (_ :: used).length
      rw [hcount, hnum, List.nil_append, List.length_cons]
      rfl
  | cons p rest =>
    obtain ⟨b, hb⟩ := h.cell (a := p) (by simp)
    obtain ⟨hhead, q, hq, hrest⟩ := h.chain
    have hperm : (rest ++ p :: used).Perm (p :: rest ++ used) := List.perm_middle
    have hnd := h.nodup
    have hp : p ∉ rest ++ used := (List.nodup_cons.mp hnd).1
    rw [next, hb, Option.bind_some] at hq
    refine ⟨p, { info with listhead := q, heap := info.heap.put p (K.reuse new b) }, ?_,
      fun hm => hp (List.mem_append_right rest hm), ⟨?_, hperm.nodup_iff.mpr hnd, fun a => ?_, ?_⟩,
      fun a => Heap.put_of_ne, .inr ⟨b, rfl, hb, Heap.put_self⟩⟩
    · rw [ObjectPoolInfo.alloc, hhead]
      simp only [hb, hq, Option.bind_eq_bind, Option.bind_some]
    · refine hrest.congr fun a ha => ?_
      have hne : a ≠ p := fun he => hp (he ▸ List.mem_append_left used ha)
      exact next_congr (Heap.put_of_ne hne)
    · rw [List.tail_cons, hperm.mem_iff, ← h.blocks a]
      rcases eq_or_ne a p with rfl | hne
      · simp [hb]
      · rw [Heap.put_of_ne hne]
    · rw [List.tail_cons, hperm.length_eq]
      exact hnum

theorem dealloc (h : Fits K info used free) (maxAllocNum : Int) {p : Nat} (hp : p ∈ used) :
    ∃ info', info.dealloc K maxAllocNum p = some info' ∧
      Fits K info' (used.erase p) (if info.numalloc > maxAllocNum then free else p :: free) ∧
      (∀ a, a ≠ p → info'.heap.cell a = info.heap.cell a) ∧
      ∀ b, info'.heap.cell p = some b → ∃ c, info.heap.cell p = some c ∧ b = K.giveBack info.listhead c := by
  obtain ⟨b, hb⟩ := h.cell (List.mem_append_right free hp)
  have hnd := h.nodup
  have hnotfree := h.not_mem_of_mem_used hp
  have hperm : (p :: (free ++ used.erase p)).Perm (free ++ used) :=
    List.perm_middle.symm.trans ((List.perm_cons_erase hp).symm.append_left free)
  have hnd' := List.nodup_cons.mp (hperm.nodup_iff.mpr hnd)
  have hnum := h.numalloc
  have hlen := hperm.length_eq
  rw [List.length_cons] at hlen
  unfold ObjectPoolInfo.dealloc
  split
  · obtain ⟨heap, hfree, hnone, hother⟩ := Heap.free_of_cell hb
    rw [hfree]
    refine ⟨_, rfl, ⟨?_, hnd'.2, fun a => ?_, ?_⟩, hother, fun c hc => ?_⟩
    · refine h.chain.congr fun a ha => next_congr (hother a fun he => hnotfree (he ▸ ha))
    · show heap.cell a ≠ none ↔ _
      rcases eq_or_ne a p with rfl | hne
      · simpa [hnone] using hnd'.1
      · rw [hother a hne, h.blocks a, ← hperm.mem_iff, List.mem_cons]
        simp [hne]
    · show i32 (info.numalloc - 1) = _
      have hlt := info.numalloc_lt
      rw [i32_of_range] <;> omega
    · rw [hnone] at hc
      cases hc
  · rw [Heap.modify_of_cell hb]
    refine ⟨_, rfl, ⟨⟨rfl, info.listhead, ?_, ?_⟩, hperm.nodup_iff.mpr hnd, fun a => ?_, ?_⟩,
      fun a => Heap.put_of_ne, fun c hc => ?_⟩
    · rw [next, Heap.put_self, Option.bind_some, K.link_giveBack]
    · exact h.chain.congr fun a ha => next_congr (Heap.put_of_ne fun he => hnotfree (he ▸ ha))
    · show (info.heap.put p (K.giveBack info.listhead b)).cell a ≠ none ↔ a ∈ p :: (free ++ used.erase p)
      rw [hperm.mem_iff, ← h.blocks a]
      rcases eq_or_ne a p with rfl | hne
      · simp [hb]
      · rw [Heap.put_of_ne hne]
    · show info.numalloc = (p :: (free ++ used.erase p)).length
      rw [hperm.length_eq]
      exact hnum
    · rw [Heap.put_self, Option.some.injEq] at hc
      exact ⟨b, hb, hc.symm⟩

theorem write (h : Fits K info used free) {p : Nat} (hp : p ∈ used) (x : α) :
    ∃ b heap, info.heap.cell p = some b ∧ heap = info.heap.put p (K.store x b) ∧
      info.write K p x = some { info with heap } ∧ Fits K { info with heap } used free := by
  obtain ⟨b, hb⟩ := h.cell (List.mem_append_right free hp)
  have hnotfree := h.not_mem_of_mem_used hp
  refine ⟨b, _, hb, rfl, ?_, ⟨?_, h.nodup, fun a => ?_, h.numalloc⟩⟩
  · rw [ObjectPoolInfo.write, Heap.modify_of_cell hb]
    rfl
  · exact h.chain.congr fun a ha => next_congr (Heap.put_of_ne fun he => hnotfree (he ▸ ha))
  · rw [← h.blocks a]
    rcases eq_or_ne a p with rfl | hne
    · simp [hb]
    · rw [Heap.put_of_ne hne]

theorem used_lt (h : Fits K info used free) : used.length < 2 ^ 31 := by
  have hnum := h.numalloc
  have hlt := info.numalloc_lt
  rw [List.length_append] at hnum
  omega

theorem not_fits_alloc (h : Fits K info used free) (hhead : info.listhead = none)
    (hlt : ¬ info.numalloc + 1 < 2 ^ 31) {info' : ObjectPoolInfo β} {p : Nat} {free' : List Nat} :
    ¬ Fits K info' (p :: used) free' := by
  intro h'
  have hnum := h.numalloc
  have hbound := h'.used_lt
  rw [h.chain.eq_nil_iff.mpr hhead, List.nil_append] at hnum
  rw [List.length_cons] at hbound
  omega

end Fits

/-! ## Runs -/

/-- `write` is what a user does to an object between `Alloc` and `Dealloc`. -/
inductive Op (α : Type) where
  | alloc (at' : Nat) (new : α)
  | dealloc (elem : Nat)
  | write (elem : Nat) (x : α)

/-- A pool and the objects that it has handed out and not got back. -/
structure Users (ι : Type) where
  info : ι
  used : List Nat

variable (K : Kind α β) (maxAllocNum : Int)

namespace ObjectPool

/-- An object that is not in use is neither given back nor written. -/
def step (s : Users (ObjectPoolInfo β)) : Op α → Option (Users (ObjectPoolInfo β))
  | .alloc at' new => (s.info.alloc K at' new).map fun r => { info := r.2, used := r.1 :: s.used }
  | .dealloc elem =>
      if elem ∈ s.used then (s.info.dealloc K maxAllocNum elem).map fun info => { info, used := s.used.erase elem }
      else some s
  | .write elem x => if elem ∈ s.used then (s.info.write K elem x).map fun info => { s with info } else some s

def run (ops : List (Op α)) : Option (Users (ObjectPoolInfo β)) :=
  ops.foldl (fun s op => s.bind fun s => step K maxAllocNum s op) (some { info := .init, used := [] })

def Sound (s : Users (ObjectPoolInfo β)) : Prop := ∃ free, Fits K s.info s.used free

def Good (s : Option (Users (ObjectPoolInfo β))) : Prop := ∃ t, s = some t ∧ Sound K t

/-- A new block is asked for only as long as the counter can count it. -/
def Allowed (s : Users (ObjectPoolInfo β)) : Op α → Prop
  | .alloc _ _ => s.info.listhead = none → s.info.numalloc + 1 < 2 ^ 31
  | .dealloc _ => True
  | .write _ _ => True

variable {K maxAllocNum} {s : Users (ObjectPoolInfo β)}

theorem step_cases (h : Sound K s) (op : Op α) :
    (Allowed s op ∧ ∃ t, step K maxAllocNum s op = some t ∧ Sound K t) ∨
      ¬ Allowed s op ∧ ¬ Good K (step K maxAllocNum s op) := by
  obtain ⟨free, h⟩ := h
  cases op with
  | alloc at' new =>
    by_cases hlt : s.info.listhead = none → s.info.numalloc + 1 < 2 ^ 31
    · obtain ⟨p, info', halloc, -, h', -⟩ := h.alloc at' new hlt
      exact .inl ⟨hlt, _, by rw [step, halloc]; rfl, _, h'⟩
    · refine .inr ⟨hlt, fun hg => ?_⟩
      obtain ⟨hhead, hlt⟩ := Classical.not_imp.mp hlt
      obtain ⟨t, ht, free', h'⟩ := hg
      obtain ⟨r, -, rfl⟩ := Option.map_eq_some_iff.mp ht
      exact h.not_fits_alloc hhead hlt h'
  | dealloc p =>
    refine .inl ⟨trivial, ?_⟩
    by_cases hp : p ∈ s.used
    · obtain ⟨info', hd, h', -⟩ := h.dealloc maxAllocNum hp
      exact ⟨_, by rw [step, if_pos hp, hd]; rfl, _, h'⟩
    · exact ⟨s, if_neg hp, free, h⟩
  | write p x =>
    refine .inl ⟨trivial, ?_⟩
    by_cases hp : p ∈ s.used
    · obtain ⟨b, heap, -, -, hw, h'⟩ := h.write hp x
      exact ⟨_, by rw [step, if_pos hp, hw]; rfl, free, h'⟩
    · exact ⟨s, if_neg hp, free, h⟩

theorem good_iff (ops : List (Op α)) :
    (∀ t op, t ++ [op] <+: ops → Good K (run K maxAllocNum (t ++ [op]))) ↔
      ∀ t op, t ++ [op] <+: ops → ∀ s, run K maxAllocNum t = some s → Allowed s op := by
  apply Runs.good_foldl_iff (I := Sound K) (M := Allowed)
  · exact ⟨[], .init⟩
  · exact fun s h => ⟨s, rfl, h⟩
  · exact fun s op h => step_cases h op

end ObjectPool

namespace NewOncePool

def write (info : ObjectInfo β) (elem : Nat) (x : α) : Option (ObjectInfo β) :=
  (info.toObjectPoolInfo.write K elem x).map fun r => { info with toObjectPoolInfo := r }

def init : ObjectInfo β := { ObjectPoolInfo.init with numusing := 0 }

def step (s : Users (ObjectInfo β)) : Op α → Option (Users (ObjectInfo β))
  | .alloc at' new => (alloc K s.info at' new).map fun r => { info := r.2, used := r.1 :: s.used }
  | .dealloc elem =>
      if elem ∈ s.used then (dealloc K maxAllocNum s.info elem).map fun info => { info, used := s.used.erase elem }
      else some s
  | .write elem x => if elem ∈ s.used then (write K s.info elem x).map fun info => { s with info } else some s

def run (ops : List (Op α)) : Option (Users (ObjectInfo β)) :=
  ops.foldl (fun s op => s.bind fun s => step K maxAllocNum s op) (some { info := init, used := [] })

structure Sound (s : Users (ObjectInfo β)) : Prop where
  fits : ∃ free, Fits K s.info.toObjectPoolInfo s.used free
  numusing : s.info.numusing = s.used.length

def Good (s : Option (Users (ObjectInfo β))) : Prop := ∃ t, s = some t ∧ Sound K t

def Allowed (s : Users (ObjectInfo β)) : Op α → Prop
  | .alloc _ _ => s.info.listhead = none → s.info.numalloc + 1 < 2 ^ 31
  | .dealloc _ => True
  | .write _ _ => True

variable {K maxAllocNum} {s : Users (ObjectInfo β)}

theorem step_map (s : Users (ObjectInfo β)) (op : Op α) :
    (step K maxAllocNum s op).map (fun t => { info := t.info.toObjectPoolInfo, used := t.used }) =
      ObjectPool.step K maxAllocNum { info := s.info.toObjectPoolInfo, used := s.used } op := by
  cases op with
  | alloc at' new =>
    rw [step, ObjectPool.step, alloc, Option.map_map, Option.map_map]
    rfl
  | dealloc p =>
    rw [step, ObjectPool.step]
    split
    · rw [dealloc, Option.map_map, Option.map_map]
      rfl
    · rfl
  | write p x =>
    rw [step, ObjectPool.step]
    split
    · rw [write, Option.map_map, Option.map_map]
      rfl
    · rfl

theorem numusing_of_step {t : Users (ObjectInfo β)} {op : Op α} (hst : step K maxAllocNum s op = some t)
    (hnum : s.info.numusing = s.used.length) (hlt : t.used.length < 2 ^ 31) : t.info.numusing = t.used.length := by
  cases op with
  | alloc at' new =>
    obtain ⟨r, hr, rfl⟩ := Option.map_eq_some_iff.mp hst
    obtain ⟨r', -, rfl⟩ := Option.map_eq_some_iff.mp hr
    rw [List.length_cons] at hlt
    show i32 (s.info.numusing + 1) = (r'.1 :: s.used).length
    rw [List.length_cons, i32_of_range] <;> omega
  | dealloc p =>
    rw [step] at hst
    split at hst
    · rename_i hp
      obtain ⟨r, hr, rfl⟩ := Option.map_eq_some_iff.mp hst
      obtain ⟨r', -, rfl⟩ := Option.map_eq_some_iff.mp hr
      have hpos := List.length_pos_of_mem hp
      rw [List.length_erase_of_mem hp] at hlt
      show i32 (s.info.numusing - 1) = (s.used.erase p).length
      rw [List.length_erase_of_mem hp, i32_of_range] <;> omega
    · cases hst
      exact hnum
  | write p x =>
    rw [step] at hst
    split at hst
    · obtain ⟨r, hr, rfl⟩ := Option.map_eq_some_iff.mp hst
      obtain ⟨r', -, rfl⟩ := Option.map_eq_some_iff.mp hr
      exact hnum
    · cases hst
      exact hnum

theorem step_cases (h : Sound K s) (op : Op α) :
    (Allowed s op ∧ ∃ t, step K maxAllocNum s op = some t ∧ Sound K t) ∨
      ¬ Allowed s op ∧ ¬ Good K (step K maxAllocNum s op) := by
  have hallowed : ObjectPool.Allowed { info := s.info.toObjectPoolInfo, used := s.used } op ↔ Allowed s op := by
    cases op <;> rfl
  have hmap := @step_map _ _ K maxAllocNum s op
  have hpool : ObjectPool.Sound K { info := s.info.toObjectPoolInfo, used := s.used } := h.fits
  rcases @ObjectPool.step_cases _ _ K maxAllocNum _ hpool op with ⟨ha, t, ht, hfits⟩ | ⟨hno, hbad⟩
  · rw [ht] at hmap
    obtain ⟨u, hu, rfl⟩ := Option.map_eq_some_iff.mp hmap
    obtain ⟨free, hf⟩ := hfits
    exact .inl ⟨hallowed.mp ha, u, hu, ⟨free, hf⟩, numusing_of_step hu h.numusing hf.used_lt⟩
  · refine .inr ⟨fun ha => hno (hallowed.mpr ha), fun hg => hbad ?_⟩
    obtain ⟨t, ht, hsound⟩ := hg
    rw [ht] at hmap
    exact ⟨_, hmap.symm, hsound.fits⟩

theorem good_iff (ops : List (Op α)) :
    (∀ t op, t ++ [op] <+: ops → Good K (run K maxAllocNum (t ++ [op]))) ↔
      ∀ t op, t ++ [op] <+: ops → ∀ s, run K maxAllocNum t = some s → Allowed s op := by
  apply Runs.good_foldl_iff (I := Sound K) (M := Allowed)
  · exact ⟨⟨[], .init⟩, rfl⟩
  · exact fun s h => ⟨s, rfl, h⟩
  · exact fun s op h => step_cases h op

end NewOncePool

/-- After every call of a run both pools are right exactly when no new block is asked for that the counter cannot
count. -/
theorem pools_iff (maxAllocNum : Int) (garbage : Option Nat) (ops : List (Op α)) :
    ((∀ t op, t ++ [op] <+: ops →
        ObjectPool.Good ObjectPool.kind (ObjectPool.run ObjectPool.kind maxAllocNum (t ++ [op]))) ↔
      ∀ t op, t ++ [op] <+: ops →
        ∀ s, ObjectPool.run ObjectPool.kind maxAllocNum t = some s → ObjectPool.Allowed s op) ∧
    ((∀ t op, t ++ [op] <+: ops → NewOncePool.Good (NewOncePool.kind garbage)
        (NewOncePool.run (NewOncePool.kind garbage) maxAllocNum (t ++ [op]))) ↔
      ∀ t op, t ++ [op] <+: ops →
        ∀ s, NewOncePool.run (NewOncePool.kind garbage) maxAllocNum t = some s → NewOncePool.Allowed s op) :=
  ⟨ObjectPool.good_iff ops, NewOncePool.good_iff ops⟩

namespace NewOncePool

variable {K maxAllocNum} {s : Users (ObjectInfo β)}

theorem run_replicate (at' : Nat) (new : α) (n : Nat) (hn : n < 2 ^ 31) :
    ∃ s, run K maxAllocNum (List.replicate n (.alloc at' new)) = some s ∧ Sound K s ∧ s.info.listhead = none ∧
      s.info.numalloc = n := by
  induction n with
  | zero => exact ⟨_, rfl, ⟨⟨[], .init⟩, rfl⟩, rfl, rfl⟩
  | succ n ih =>
    obtain ⟨s, hs, hsound, hhead, hnum⟩ := ih (by omega)
    have hallowed : Allowed s (.alloc at' new : Op α) := fun _ => by omega
    rcases @step_cases _ _ K maxAllocNum s hsound (.alloc at' new) with ⟨-, t, ht, hsound'⟩ | ⟨hno, -⟩
    · refine ⟨t, ?_, hsound', ?_⟩
      · rw [List.replicate_succ', run, List.foldl_append, ← run, hs]
        exact ht
      · obtain ⟨r, hr, rfl⟩ := Option.map_eq_some_iff.mp ht
        obtain ⟨r', hr', rfl⟩ := Option.map_eq_some_iff.mp hr
        rw [ObjectPoolInfo.alloc, hhead] at hr'
        cases hr'
        refine ⟨rfl, ?_⟩
        show i32 (s.info.numalloc + 1) = (n + 1 : Nat)
        rw [hnum, i32_of_range] <;> omega
    · exact absurd hallowed hno

end NewOncePool

/-- With `2^31` objects in use the counters are not their number. -/
theorem counter_overflows :
    ¬ NewOncePool.Good (NewOncePool.kind none)
      (NewOncePool.run (NewOncePool.kind none) 10000 (List.replicate (2 ^ 31) (.alloc 0 (0 : Nat)))) := by
  obtain ⟨s, hs, hsound, hhead, hnum⟩ :=
    @NewOncePool.run_replicate _ _ (NewOncePool.kind none) 10000 0 (0 : Nat) (2 ^ 31 - 1) (by omega)
  have hlen : (2 ^ 31 : Nat) = (2 ^ 31 - 1) + 1 := by omega
  rw [hlen, List.replicate_succ', NewOncePool.run, List.foldl_append, ← NewOncePool.run, hs]
  rcases @NewOncePool.step_cases _ _ _ 10000 _ hsound (.alloc 0 0) with ⟨ha, -⟩ | ⟨-, hbad⟩
  · have := ha hhead
    omega
  · exact hbad

end GlobalServer.Pools
