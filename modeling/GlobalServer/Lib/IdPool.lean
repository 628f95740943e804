import Mathlib.Data.List.Nodup
import Mathlib.Data.List.Range
import Mathlib.Data.List.Perm.Basic

/-!
# Ids from a free list

Ids are counted up from 1, and an id that is given back is given out again
before a new one. The ids in use and those on the free list are together the
ids so far, each once.
-/

namespace IdPool

open List

structure Pool where
  top : Nat
  free : List Nat
  live : List Nat

def init : Pool := { top := 0, free := [], live := [] }

def Pool.alloc (p : Pool) : Pool :=
  match p.free with
  | id :: free => { p with free, live := id :: p.live }
  | [] => { p with top := p.top + 1, live := (p.top + 1) :: p.live }

def Pool.release (p : Pool) (id : Nat) : Pool := { p with free := id :: p.free, live := p.live.erase id }

def Ok (p : Pool) : Prop := (p.live ++ p.free).Perm (range' 1 p.top)

theorem ok_init : Ok init := Perm.refl _

variable {p : Pool}

theorem Ok.alloc (h : Ok p) : Ok p.alloc := by
  unfold Ok Pool.alloc at *
  cases hf : p.free with
  | cons id free =>
    rw [hf] at h
    exact perm_middle.symm.trans h
  | nil =>
    rw [hf, append_nil] at h
    have hr : range' 1 (p.top + 1) = range' 1 p.top ++ [p.top + 1] := by
      rw [range'_concat, Nat.one_mul, Nat.add_comm 1]
    dsimp only
    rw [hr, append_nil]
    exact (h.cons _).trans (perm_append_singleton _ _).symm

theorem Ok.release (h : Ok p) {id : Nat} (hid : id ∈ p.live) : Ok (p.release id) := by
  unfold Ok Pool.release at *
  exact (perm_middle.trans ((perm_cons_erase hid).symm.append_right p.free)).trans h

theorem Ok.nodup (h : Ok p) : (p.live ++ p.free).Nodup := h.nodup_iff.mpr nodup_range'

theorem Ok.nodup_live (h : Ok p) : p.live.Nodup := (nodup_append.mp h.nodup).1

theorem Ok.nodup_free (h : Ok p) : p.free.Nodup := (nodup_append.mp h.nodup).2.1

theorem Ok.mem_iff (h : Ok p) (id : Nat) : id ∈ p.live ∨ id ∈ p.free ↔ 0 < id ∧ id ≤ p.top := by
  rw [← mem_append, Perm.mem_iff h, mem_range'_1]
  omega

theorem Ok.mem_free_iff (h : Ok p) (id : Nat) : id ∈ p.free ↔ (0 < id ∧ id ≤ p.top) ∧ id ∉ p.live := by
  rw [← h.mem_iff]
  have hd := (nodup_append.mp h.nodup).2.2
  constructor
  · intro hf
    exact ⟨.inr hf, fun hl => hd id hl id hf rfl⟩
  · intro hf
    exact hf.1.resolve_left hf.2

theorem Ok.pos (h : Ok p) {id : Nat} (hid : id ∈ p.live) : 0 < id ∧ id ≤ p.top := (h.mem_iff id).mp (.inl hid)

end IdPool
