import GlobalServer.Lib.Bytes
import GlobalServer.Lib.Results

/-!
# The byte buffer of slience/base

`Buffer` keeps a heap block of `_size` bytes, of which the first `_pos` have
been written and the first `_offset` of those read or cut. Only the written
bytes are kept here: nothing reads the block past `_pos`.
-/

namespace GlobalServer

open Bytes

def M_BUFFER_DEFAILT_SIZE : Nat := 512

structure Buffer where
  size : Nat
  offset : Nat
  /-- the block's first `_pos` bytes -/
  data : List UInt8
  size_lt : size < 2 ^ 32
  deriving DecidableEq

namespace Buffer

def init : Buffer := { size := M_BUFFER_DEFAILT_SIZE, offset := 0, data := [], size_lt := by decide }

def pos (b : Buffer) : Nat := b.data.length

def length (b : Buffer) : Nat := sub32 b.pos b.offset

def clear (b : Buffer) : Buffer :=
  { size := if 4 * 1024 ≤ b.size then M_BUFFER_DEFAILT_SIZE else b.size
    offset := 0
    data := []
    size_lt := by split; exacts [by decide, b.size_lt] }

/-- Whether writing `len` bytes moves the contents to a new block and frees the old one. -/
def grows (b : Buffer) (len : Nat) : Bool := b.size < u32 (b.pos + len)

/-- The block's size once `len` more bytes are asked for. -/
def sizeFor (b : Buffer) (len : Nat) : Nat :=
  if b.grows len then u32 (M_BUFFER_DEFAILT_SIZE * (u32 (b.pos + len) / M_BUFFER_DEFAILT_SIZE + 1))
  else b.size

theorem sizeFor_lt (b : Buffer) (len : Nat) : b.sizeFor len < 2 ^ 32 := by
  unfold sizeFor; split; exacts [u32_lt _, b.size_lt]

def write (b : Buffer) (bs : List UInt8) : Except Fault Buffer :=
  if b.pos + bs.length ≤ b.sizeFor bs.length then
    .ok { size := b.sizeFor bs.length, offset := b.offset, data := b.data ++ bs, size_lt := b.sizeFor_lt _ }
  else .error .outOfBounds

def cutData (b : Buffer) (len : Nat) : Buffer :=
  { b with offset := if b.pos < u32 (b.offset + len) then b.pos else u32 (b.offset + len) }

/-- `Read` of `len` bytes, which does nothing when there are not so many. -/
def read (b : Buffer) (len : Nat) : Buffer × Option (List UInt8) :=
  if b.pos < u32 (b.offset + len) then (b, none)
  else ({ b with offset := u32 (b.offset + len) }, some ((b.data.drop b.offset).take len))

/-- The bytes at `Data()`. -/
def rest (b : Buffer) : List UInt8 := b.data.drop b.offset

@[simp] theorem clear_offset (b : Buffer) : b.clear.offset = 0 := rfl

@[simp] theorem clear_data (b : Buffer) : b.clear.data = [] := rfl

theorem length_of_offset {b : Buffer} (h : b.offset = 0) (hd : b.data.length < 2 ^ 32) :
    b.length = b.data.length := by
  unfold length pos; rw [h, sub32_of_le hd (Nat.zero_le _), Nat.sub_zero]

@[simp] theorem clear_length (b : Buffer) : b.clear.length = 0 :=
  length_of_offset rfl (by simp)

theorem write_eq_ok {b b' : Buffer} {bs : List UInt8} (h : b.write bs = .ok b') :
    b'.data = b.data ++ bs ∧ b'.offset = b.offset ∧ b'.size = b.sizeFor bs.length ∧
      b.data.length + bs.length < 2 ^ 32 := by
  unfold write at h
  split at h
  · rename_i hl
    cases h
    exact ⟨rfl, rfl, rfl, Nat.lt_of_le_of_lt hl (b.sizeFor_lt _)⟩
  · cases h

theorem write_eq {b : Buffer} {bs : List UInt8} {n : Nat} (hn : b.sizeFor bs.length = n) (hlt : n < 2 ^ 32) :
    b.write bs = if b.pos + bs.length ≤ n then
      .ok { size := n, offset := b.offset, data := b.data ++ bs, size_lt := hlt } else .error .outOfBounds := by
  subst hn
  rfl

theorem not_grows_of_fits {b : Buffer} {n : Nat} (h : b.data.length + n ≤ b.size) : b.grows n = false := by
  have := b.size_lt
  unfold grows pos; rw [u32_of_lt (by omega)]; exact decide_eq_false (by omega)

theorem write_of_le (b : Buffer) (bs : List UInt8) (h : b.data.length + bs.length < 2 ^ 32 - M_BUFFER_DEFAILT_SIZE) :
    ∃ b', b.write bs = .ok b' := by
  unfold M_BUFFER_DEFAILT_SIZE at h
  have hu : u32 (b.pos + bs.length) = b.data.length + bs.length := u32_of_lt (by unfold pos; omega)
  refine ⟨_, if_pos ?_⟩
  unfold sizeFor grows
  rw [hu]
  split
  · unfold u32 M_BUFFER_DEFAILT_SIZE pos; omega
  · rename_i hg
    simp only [decide_eq_true_eq, not_lt] at hg
    exact hg

theorem write_of_lt (b : Buffer) (bs : List UInt8) (h : b.data.length + bs.length < 2 ^ 31) :
    ∃ b', b.write bs = .ok b' :=
  write_of_le b bs (by unfold M_BUFFER_DEFAILT_SIZE; omega)

/-- The offset lies in the written part of a block that is not too long. -/
structure Sane (b : Buffer) : Prop where
  offset : b.offset ≤ b.data.length
  data : b.data.length < 2 ^ 32

theorem sane_init : init.Sane := ⟨by simp [init], by simp [init]⟩

theorem sane_clear (b : Buffer) : b.clear.Sane := ⟨by simp, by simp⟩

@[simp] theorem rest_clear (b : Buffer) : b.clear.rest = [] := by simp [rest]

theorem Sane.length {b : Buffer} (h : b.Sane) : b.length = b.rest.length := by
  unfold Buffer.length rest pos
  rw [sub32_of_le h.data h.offset, List.length_drop]

theorem Sane.write {b b' : Buffer} {bs : List UInt8} (h : b.Sane) (hw : b.write bs = .ok b') :
    b'.Sane ∧ b'.rest = b.rest ++ bs ∧ b'.offset = b.offset := by
  obtain ⟨hd, ho, -, hl⟩ := write_eq_ok hw
  refine ⟨⟨?_, ?_⟩, ?_, ho⟩
  · rw [ho, hd, List.length_append]
    exact Nat.le_add_right_of_le h.offset
  · rw [hd, List.length_append]
    exact hl
  · rw [rest, rest, ho, hd, List.drop_append_of_le_length h.offset]

theorem Sane.foldlM_write : ∀ {pieces : List (List UInt8)} {b b' : Buffer}, b.Sane →
    pieces.foldlM Buffer.write b = .ok b' → b'.Sane ∧ b'.rest = b.rest ++ pieces.flatten
  | [], b, b', h, hw => by
    cases hw
    exact ⟨h, by rw [List.flatten_nil, List.append_nil]⟩
  | p :: pieces, b, b', h, hw => by
    rw [List.foldlM_cons] at hw
    obtain ⟨b₁, h₁, hw⟩ := Except.bind_eq_ok.mp hw
    obtain ⟨hs, hr, -⟩ := h.write h₁
    obtain ⟨hs', hr'⟩ := hs.foldlM_write hw
    exact ⟨hs', by rw [hr', hr, List.flatten_cons, List.append_assoc]⟩

theorem Sane.cutData {b : Buffer} (h : b.Sane) {n : Nat} (hn : n ≤ b.length) :
    (b.cutData n).Sane ∧ (b.cutData n).rest = b.rest.drop n := by
  have hd := h.data
  have ho := h.offset
  rw [h.length, rest, List.length_drop] at hn
  have hu : u32 (b.offset + n) = b.offset + n := u32_of_lt (by omega)
  have hc : (b.cutData n).offset = b.offset + n := by
    unfold Buffer.cutData pos
    rw [hu]
    exact if_neg (by omega)
  refine ⟨⟨?_, hd⟩, ?_⟩
  · rw [hc]
    show b.offset + n ≤ b.data.length
    omega
  · rw [rest, rest, hc, List.drop_drop]
    rfl

theorem Sane.read {b : Buffer} (h : b.Sane) {n : Nat} (hn : n ≤ b.rest.length) :
    ∃ b', b.read n = (b', some (b.rest.take n)) ∧ b'.Sane ∧ b'.rest = b.rest.drop n ∧ b'.offset = b.offset + n := by
  have hd := h.data
  have ho := h.offset
  have hl := hn
  rw [rest, List.length_drop] at hl
  have hu : u32 (b.offset + n) = b.offset + n := u32_of_lt (by omega)
  refine ⟨{ b with offset := b.offset + n }, ?_, ⟨?_, hd⟩, ?_, rfl⟩
  · unfold Buffer.read pos
    rw [hu]
    exact if_neg (by omega)
  · show b.offset + n ≤ b.data.length
    omega
  · rw [rest, rest, List.drop_drop]

theorem Sane.length_data {b : Buffer} (h : b.Sane) : b.data.length = b.offset + b.rest.length := by
  have ho := h.offset
  rw [rest, List.length_drop]
  omega

end Buffer

end GlobalServer
