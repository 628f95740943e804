import Mathlib.Data.List.Nodup
import Mathlib.Data.List.Perm.Subperm
import Mathlib.Logic.Function.Basic

/-!
# Pooled objects

`NewOncePool` constructs an object once. An object that goes back is put in
front of the free ones as it is, and handed out again without being cleared;
with more than `MaxAllocNum` objects it is freed instead.

Blocks of memory are numbered as they are allocated.
-/

namespace GlobalServer

structure NewOncePool (α : Type) where
  numalloc : Nat
  listhead : List Nat
  object : Nat → α
  mallocs : Nat

namespace NewOncePool

variable {α : Type}

/-- `Alloc`; `new` is an object that has just been constructed. -/
def alloc (pool : NewOncePool α) (new : α) : Nat × NewOncePool α :=
  match pool.listhead with
  | [] => (pool.mallocs,
      { pool with
        numalloc := pool.numalloc + 1, mallocs := pool.mallocs + 1
        object := Function.update pool.object pool.mallocs new })
  | p :: rest => (p, { pool with listhead := rest })

def dealloc (pool : NewOncePool α) (maxAllocNum : Nat) (p : Nat) : NewOncePool α :=
  if maxAllocNum < pool.numalloc then { pool with numalloc := pool.numalloc - 1 }
  else { pool with listhead := p :: pool.listhead }

def set (pool : NewOncePool α) (p : Nat) (x : α) : NewOncePool α :=
  { pool with object := Function.update pool.object p x }

/-- The objects in use and the free ones are different, and each is one that `P` is true of. -/
structure Sound (P : α → Prop) (used : List Nat) (pool : NewOncePool α) : Prop where
  nodup : (used ++ pool.listhead).Nodup
  mallocs : ∀ p ∈ used ++ pool.listhead, p < pool.mallocs
  object : ∀ p ∈ used ++ pool.listhead, P (pool.object p)

variable {P : α → Prop} {used : List Nat} {pool : NewOncePool α} {new : α}

theorem Sound.alloc (h : Sound P used pool) (hn : P new) : Sound P (used ++ [(pool.alloc new).1]) (pool.alloc new).2 ∧
    (pool.alloc new).1 ∉ used ∧ ∀ p ∈ used, (pool.alloc new).2.object p = pool.object p := by
  unfold NewOncePool.alloc
  cases hl : pool.listhead with
  | nil =>
    have hall := h.mallocs
    have hnd := h.nodup
    have hobj := h.object
    rw [hl, List.append_nil] at hall hnd hobj
    have hnew : pool.mallocs ∉ used := fun hm => absurd (hall _ hm) (Nat.lt_irrefl _)
    refine ⟨⟨?_, fun p hp => ?_, fun p hp => ?_⟩, hnew, fun p hp => ?_⟩
    · show ((used ++ [pool.mallocs]) ++ []).Nodup
      rw [List.append_nil]
      refine List.nodup_append.mpr ⟨hnd, List.nodup_singleton _, fun p hp q hq he => hnew ?_⟩
      rwa [← List.mem_singleton.mp hq, ← he]
    · replace hp : p ∈ (used ++ [pool.mallocs]) ++ [] := hp
      rw [List.append_nil] at hp
      rcases List.mem_append.mp hp with hp | hp
      · exact Nat.lt_succ_of_lt (hall p hp)
      · rw [List.mem_singleton.mp hp]
        exact Nat.lt_succ_self _
    · replace hp : p ∈ (used ++ [pool.mallocs]) ++ [] := hp
      rw [List.append_nil] at hp
      show P (Function.update pool.object pool.mallocs new p)
      by_cases he : p = pool.mallocs
      · rw [he, Function.update_self]
        exact hn
      · rw [Function.update_of_ne he]
        rcases List.mem_append.mp hp with hp | hp
        · exact hobj p hp
        · exact absurd (List.mem_singleton.mp hp) he
    · have hne : p ≠ pool.mallocs := fun he => hnew (he ▸ hp)
      exact Function.update_of_ne hne new pool.object
  | cons p rest =>
    obtain ⟨hnd, hall, hobj⟩ := h
    rw [hl] at hnd hall hobj
    have hp : p ∉ used := fun hm => (List.nodup_append.mp hnd).2.2 p hm p List.mem_cons_self rfl
    have happ : (used ++ [p]) ++ rest = used ++ p :: rest := by simp
    refine ⟨⟨?_, ?_, ?_⟩, hp, fun _ _ => rfl⟩
    · show ((used ++ [p]) ++ rest).Nodup
      rwa [happ]
    · show ∀ q ∈ (used ++ [p]) ++ rest, _
      rwa [happ]
    · show ∀ q ∈ (used ++ [p]) ++ rest, _
      rwa [happ]

theorem Sound.dealloc {p : Nat} (h : Sound P (p :: used) pool) (maxAllocNum : Nat) :
    Sound P used (pool.dealloc maxAllocNum p) := by
  unfold NewOncePool.dealloc
  split
  · obtain ⟨hnd, hall, hobj⟩ := h
    exact ⟨(List.nodup_cons.mp hnd).2, fun q hq => hall q (List.mem_cons_of_mem p hq),
      fun q hq => hobj q (List.mem_cons_of_mem p hq)⟩
  · have hperm : (used ++ p :: pool.listhead).Perm (p :: used ++ pool.listhead) := List.perm_middle
    exact ⟨hperm.nodup_iff.mpr h.nodup, fun q hq => h.mallocs q (hperm.mem_iff.mp hq),
      fun q hq => h.object q (hperm.mem_iff.mp hq)⟩

theorem Sound.set (h : Sound P used pool) (p : Nat) {x : α} (hx : P x) : Sound P used (pool.set p x) := by
  refine ⟨h.nodup, h.mallocs, fun q hq => ?_⟩
  show P (Function.update pool.object p x q)
  by_cases he : q = p
  · rw [he, Function.update_self]
    exact hx
  · rw [Function.update_of_ne he]
    exact h.object q hq

theorem set_object_of_ne {p q : Nat} {x : α} (h : q ≠ p) : (pool.set p x).object q = pool.object q :=
  Function.update_of_ne h _ _

theorem set_object_self {p : Nat} {x : α} : (pool.set p x).object p = x := Function.update_self _ _ _

@[simp] theorem dealloc_object (maxAllocNum p : Nat) : (pool.dealloc maxAllocNum p).object = pool.object := by
  unfold NewOncePool.dealloc
  split <;> rfl

end NewOncePool

end GlobalServer
