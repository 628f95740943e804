import GlobalServer.Base.Buffer
import GlobalServer.Lib.Runs
import Mathlib.Algebra.Group.Int.Defs
import Mathlib.Algebra.Group.Nat.Defs
import Mathlib.Logic.Function.Basic

/-!
# The byte buffer as a queue of bytes

Here `Buffer` keeps its whole block, also the bytes that nothing has been
written to, and every copy is checked against the block. What has been written
of it is the buffer that the other parts of the model use.
-/

namespace GlobalServer

open Bytes

/-- `Buffer` with its block. `malloc` is taken to give what it is asked for. -/
structure RawBuffer where
  size : Nat
  pos : Nat
  offset : Nat
  block : List UInt8
  length_block : block.length = size
  size_lt : size < 2 ^ 32

namespace RawBuffer

/-- What a new block of `size` bytes holds. -/
def malloc (garbage : Nat → UInt8) (size : Nat) : List UInt8 := (List.range size).map garbage

@[simp] theorem length_malloc (garbage : Nat → UInt8) (size : Nat) : (malloc garbage size).length = size := by
  simp [malloc]

theorem default_size_lt : M_BUFFER_DEFAILT_SIZE < 2 ^ 32 := by decide

def init (garbage : Nat → UInt8) : RawBuffer where
  size := M_BUFFER_DEFAILT_SIZE
  pos := 0
  offset := 0
  block := malloc garbage M_BUFFER_DEFAILT_SIZE
  length_block := length_malloc ..
  size_lt := default_size_lt

def clear (b : RawBuffer) (garbage : Nat → UInt8) : RawBuffer :=
  if 4 * 1024 ≤ b.size then init garbage else { b with pos := 0, offset := 0 }

def cutData (b : RawBuffer) (len : Int32) : RawBuffer :=
  { b with offset := if b.pos < u32 (b.offset + len.toUInt32.toNat) then b.pos else u32 (b.offset + len.toUInt32.toNat) }

def length (b : RawBuffer) : Nat := sub32 b.pos b.offset

/-- `Write` where the block is too small: the written bytes go to a new one of `size` bytes. -/
def grow (b : RawBuffer) (size : Nat) (hs : size < 2 ^ 32) (garbage : Nat → UInt8) : Except Fault RawBuffer :=
  match read b.block 0 b.pos with
  | .error f => .error f
  | .ok bytes =>
      if h : bytes.length ≤ size then
        .ok { b with
          size := size
          block := write (malloc garbage size) 0 bytes
          length_block := by rw [length_write (by simpa using h), length_malloc]
          size_lt := hs }
      else .error .outOfBounds

/-- `memcpy(_data + _pos, data, len); _pos += len;` -/
def put (b : RawBuffer) (data : List UInt8) : Except Fault RawBuffer :=
  if h : b.pos + data.length ≤ b.block.length then
    .ok { b with
      pos := u32 (b.pos + data.length)
      block := write b.block b.pos data
      length_block := by rw [length_write h, b.length_block] }
  else .error .outOfBounds

def write (b : RawBuffer) (data : List UInt8) (garbage : Nat → UInt8) : Except Fault RawBuffer := do
  if b.size < u32 (b.pos + data.length) then
    let b ←
      b.grow (u32 (M_BUFFER_DEFAILT_SIZE * (u32 (b.pos + data.length) / M_BUFFER_DEFAILT_SIZE + 1))) (u32_lt _) garbage
    b.put data
  else b.put data

/-- The bytes that `Read` copies, if it copies any. -/
def read (b : RawBuffer) (len : UInt32) : Except Fault (RawBuffer × Option (List UInt8)) :=
  if b.pos < u32 (b.offset + len.toNat) then .ok (b, none)
  else do
    let bytes ← Bytes.read b.block b.offset len.toNat
    .ok ({ b with offset := u32 (b.offset + len.toNat) }, some bytes)

/-- The `Length()` bytes at `Data()`. -/
def exposed (b : RawBuffer) : List UInt8 := (b.block.drop b.offset).take b.length

/-! ## What has been written -/

def written (b : RawBuffer) : Buffer :=
  { size := b.size, offset := b.offset, data := b.block.take b.pos, size_lt := b.size_lt }

/-- The order of the two indices and the block's end. -/
structure Ordered (b : RawBuffer) : Prop where
  offset_le : b.offset ≤ b.pos
  pos_le : b.pos ≤ b.size

variable {b b' : RawBuffer} {data : List UInt8} {garbage : Nat → UInt8}

namespace Ordered

theorem pos_written (h : b.Ordered) : b.written.pos = b.pos := by
  have := h.pos_le
  have := b.length_block
  unfold Buffer.pos written
  rw [List.length_take]
  omega

theorem sane (h : b.Ordered) : b.written.Sane := by
  have hp : b.written.data.length = b.pos := h.pos_written
  have hs := b.size_lt
  have hle := h.pos_le
  have ho : b.written.offset ≤ b.pos := h.offset_le
  exact ⟨hp.symm ▸ ho, by omega⟩

theorem length_eq (h : b.Ordered) : b.length = b.pos - b.offset := by
  have := b.size_lt
  have := h.pos_le
  exact sub32_of_le (by omega) h.offset_le

theorem exposed_eq (h : b.Ordered) : b.exposed = b.written.rest := by
  unfold exposed Buffer.rest written
  rw [h.length_eq, List.drop_take]

theorem length_exposed (h : b.Ordered) : b.exposed.length = b.pos - b.offset := by
  have := h.pos_le
  have := b.length_block
  unfold exposed
  rw [h.length_eq, List.length_take, List.length_drop]
  omega

theorem take_length (h : b.Ordered) : (b.block.take b.pos).length = b.pos := h.pos_written

theorem grow {size : Nat} (h : b.Ordered) (hs : size < 2 ^ 32) (hle : b.pos ≤ size) (garbage : Nat → UInt8) :
    ∃ b', b.grow size hs garbage = .ok b' ∧ b'.Ordered ∧ b'.size = size ∧ b'.pos = b.pos ∧
      b'.written = { b.written with size := size, size_lt := hs } := by
  have hpos := h.pos_le
  have hlen := h.take_length
  have hread : Bytes.read b.block 0 b.pos = .ok (b.block.take b.pos) := read_of_le (by rw [b.length_block]; omega)
  unfold RawBuffer.grow
  rw [hread]
  dsimp only
  rw [dif_pos (by omega)]
  refine ⟨_, rfl, ⟨h.offset_le, hle⟩, rfl, rfl, ?_⟩
  unfold written
  congr 1
  have htake := @take_write _ (b.block.take b.pos) _ (Nat.zero_le (malloc garbage size).length)
  rwa [hlen, Nat.zero_add, List.take_zero, List.nil_append] at htake

theorem grow_error {size : Nat} (h : b.Ordered) (hs : size < 2 ^ 32) (hle : ¬ b.pos ≤ size) :
    b.grow size hs garbage = .error .outOfBounds := by
  have hpos := h.pos_le
  unfold RawBuffer.grow
  rw [read_of_le (by rw [b.length_block]; omega)]
  exact dif_neg (by simpa [h.take_length] using hle)

theorem put (h : b.Ordered) (hle : b.pos + data.length ≤ b.size) :
    ∃ b', b.put data = .ok b' ∧ b'.Ordered ∧ b'.written = { b.written with data := b.written.data ++ data } := by
  have hs := b.size_lt
  have hlen := h.take_length
  have hoff := h.offset_le
  have hpos : u32 (b.pos + data.length) = b.pos + data.length := u32_of_lt (by omega)
  unfold RawBuffer.put
  rw [dif_pos (by rw [b.length_block]; exact hle)]
  refine ⟨_, rfl, ⟨?_, ?_⟩, ?_⟩
  · show b.offset ≤ u32 _
    omega
  · show u32 _ ≤ b.size
    omega
  · unfold written
    congr 1
    show (Bytes.write b.block b.pos data).take (u32 (b.pos + data.length)) = b.block.take b.pos ++ data
    rw [hpos]
    exact take_write (by rw [b.length_block]; omega)

theorem write (h : b.Ordered) (data : List UInt8) (garbage : Nat → UInt8) :
    (∃ b', b.write data garbage = .ok b' ∧ b'.Ordered ∧ b.written.write data = .ok b'.written) ∨
      b.write data garbage = .error .outOfBounds ∧ b.written.write data = .error .outOfBounds := by
  have hp := h.pos_written
  have hpos := h.pos_le
  have bad : ∀ {c : RawBuffer}, ¬ c.pos + data.length ≤ c.size → c.put data = .error .outOfBounds := fun {c} hc =>
    dif_neg (by rwa [c.length_block])
  have hgrows : b.written.grows data.length = decide (b.size < u32 (b.pos + data.length)) := by
    rw [Buffer.grows, hp]
    rfl
  unfold RawBuffer.write
  by_cases hg : b.size < u32 (b.pos + data.length)
  · have hsize : b.written.sizeFor data.length =
        u32 (M_BUFFER_DEFAILT_SIZE * (u32 (b.pos + data.length) / M_BUFFER_DEFAILT_SIZE + 1)) := by
      rw [Buffer.sizeFor, hgrows, if_pos (decide_eq_true hg), hp]
    rw [if_pos hg, Buffer.write_eq hsize (u32_lt _), hp]
    by_cases hle : b.pos ≤ u32 (M_BUFFER_DEFAILT_SIZE * (u32 (b.pos + data.length) / M_BUFFER_DEFAILT_SIZE + 1))
    · obtain ⟨b₁, hgrow, ho, hsize₁, hpos₁, hw⟩ := h.grow (u32_lt _) hle garbage
      rw [hgrow]
      show (∃ b', b₁.put data = _ ∧ _) ∨ b₁.put data = _ ∧ _
      by_cases hfit : b₁.pos + data.length ≤ b₁.size
      · obtain ⟨b', hput, ho', hw'⟩ := ho.put hfit
        refine .inl ⟨b', hput, ho', ?_⟩
        rw [hpos₁, hsize₁] at hfit
        rw [if_pos hfit, hw', hw]
      · refine .inr ⟨bad hfit, ?_⟩
        rw [hpos₁, hsize₁] at hfit
        exact if_neg hfit
    · rw [h.grow_error (u32_lt _) hle]
      exact .inr ⟨rfl, if_neg (by omega)⟩
  · have hsize : b.written.sizeFor data.length = b.size := by
      rw [Buffer.sizeFor, hgrows, if_neg (by simpa using hg)]
      rfl
    rw [if_neg hg, Buffer.write_eq hsize b.size_lt, hp]
    by_cases hfit : b.pos + data.length ≤ b.size
    · obtain ⟨b', hput, ho, hw⟩ := h.put hfit
      refine .inl ⟨b', hput, ho, ?_⟩
      rw [if_pos hfit, hw]
      rfl
    · exact .inr ⟨bad hfit, if_neg hfit⟩

end Ordered

/-! ## One operation -/

/-- The buffer has the bytes `l` to give. -/
structure Holds (b : RawBuffer) (l : List UInt8) : Prop extends b.Ordered where
  exposed : b.exposed = l

namespace Holds

variable {l : List UInt8}

theorem length_eq (h : Holds b l) : l.length = b.pos - b.offset := by
  rw [← h.exposed, h.toOrdered.length_exposed]

theorem init (garbage : Nat → UInt8) : Holds (init garbage) [] := by
  refine ⟨⟨Nat.le_refl _, Nat.zero_le _⟩, ?_⟩
  rw [Ordered.exposed_eq ⟨Nat.le_refl _, Nat.zero_le _⟩]
  rfl

theorem clear (b : RawBuffer) (garbage : Nat → UInt8) : Holds (b.clear garbage) [] := by
  unfold RawBuffer.clear
  split
  · exact init garbage
  · have ho : ({ b with pos := 0, offset := 0 } : RawBuffer).Ordered := ⟨Nat.le_refl _, Nat.zero_le _⟩
    refine ⟨ho, ?_⟩
    rw [ho.exposed_eq]
    rfl

theorem drop (h : Holds b l) {n : Nat} (hn : n ≤ l.length) : Holds { b with offset := b.offset + n } (l.drop n) := by
  have hle := h.length_eq
  have hoff := h.offset_le
  have ho : ({ b with offset := b.offset + n } : RawBuffer).Ordered := by
    refine ⟨?_, h.pos_le⟩
    show b.offset + n ≤ b.pos
    omega
  refine ⟨ho, ?_⟩
  rw [ho.exposed_eq, ← h.exposed, h.toOrdered.exposed_eq]
  exact (List.drop_drop ..).symm

theorem write_ok_iff (h : Holds b l) (data : List UInt8) (garbage : Nat → UInt8) :
    (∃ b', b.write data garbage = .ok b') ↔
      b.pos + data.length ≤ b.size ∨ b.pos + data.length < 2 ^ 32 - M_BUFFER_DEFAILT_SIZE := by
  have hp := h.toOrdered.pos_written
  have hs := b.size_lt
  have hw : (∃ b', b.write data garbage = .ok b') ↔ b.pos + data.length ≤ b.written.sizeFor data.length := by
    rw [← hp]
    rcases h.toOrdered.write data garbage with ⟨b', hb, -, hw⟩ | ⟨hb, hw⟩
    · rw [hb]
      refine ⟨fun _ => ?_, fun _ => ⟨b', rfl⟩⟩
      by_contra hno
      rw [Buffer.write, if_neg hno] at hw
      cases hw
    · rw [hb]
      refine ⟨fun he => ?_, fun hle => ?_⟩
      · obtain ⟨b', he⟩ := he
        cases he
      · rw [Buffer.write, if_pos hle] at hw
        cases hw
  have hsize : b.written.size = b.size := rfl
  rw [hw]
  unfold Buffer.sizeFor Buffer.grows M_BUFFER_DEFAILT_SIZE u32
  rw [hp, hsize]
  simp only [decide_eq_true_eq]
  split <;> omega

theorem write (h : Holds b l) (hb : b.write data garbage = .ok b') : Holds b' (l ++ data) := by
  rcases h.toOrdered.write data garbage with ⟨b₁, hb₁, ho, hw⟩ | ⟨he, -⟩
  · rw [hb] at hb₁
    cases hb₁
    refine ⟨ho, ?_⟩
    rw [ho.exposed_eq, (h.toOrdered.sane.write hw).2.1, ← h.toOrdered.exposed_eq, h.exposed]
  · rw [hb] at he
    cases he

theorem read (h : Holds b l) (len : UInt32) (hlt : b.offset + len.toNat < 2 ^ 32) :
    ∃ b', b.read len = .ok (b', if len.toNat ≤ l.length then some (l.take len.toNat) else none) ∧
      Holds b' (if len.toNat ≤ l.length then l.drop len.toNat else l) := by
  have hlen := h.length_eq
  have hoff := h.offset_le
  have hpos := h.pos_le
  have hblock := b.length_block
  unfold RawBuffer.read
  rw [u32_of_lt hlt]
  by_cases hle : len.toNat ≤ l.length
  · have hread : Bytes.read b.block b.offset len.toNat = .ok (l.take len.toNat) := by
      rw [read_of_le (by omega), ← h.exposed, RawBuffer.exposed, h.toOrdered.length_eq, List.take_take,
        Nat.min_eq_left (by omega)]
    rw [if_neg (by omega), hread, if_pos hle, if_pos hle]
    exact ⟨_, rfl, h.drop hle⟩
  · rw [if_pos (by omega), if_neg hle, if_neg hle]
    exact ⟨b, rfl, h⟩

/-- A read whose sum wraps copies from behind the block. -/
theorem read_error (h : Holds b l) {len : UInt32} (hle : ¬ b.offset + len.toNat < 2 ^ 32) :
    b.read len = .error .outOfBounds := by
  have hlen := len.toNat_lt
  have hoff := h.offset_le
  have hpos := h.pos_le
  have hs := b.size_lt
  have hblock := b.length_block
  have hread : Bytes.read b.block b.offset len.toNat = .error .outOfBounds := if_neg (by omega)
  unfold RawBuffer.read
  rw [if_neg (by unfold u32; omega), hread]
  rfl

/-- The offset after `CutData`. -/
def cut (b : RawBuffer) (len : Int32) : Nat :=
  if b.pos < u32 (b.offset + len.toUInt32.toNat) then b.pos else u32 (b.offset + len.toUInt32.toNat)

theorem cut_le (b : RawBuffer) (len : Int32) : cut b len ≤ b.pos := by
  unfold cut
  split <;> omega

theorem length_cutData (h : Holds b l) (len : Int32) : (b.cutData len).exposed.length = b.pos - cut b len :=
  Ordered.length_exposed (b := b.cutData len) ⟨cut_le b len, h.pos_le⟩

theorem toNat_toUInt32 (len : Int32) : (0 ≤ len.toInt ∧ (len.toUInt32.toNat : Int) = len.toInt) ∨
    len.toInt < 0 ∧ (len.toUInt32.toNat : Int) = len.toInt + 2 ^ 32 := by
  have hlt := len.toUInt32.toNat_lt
  have h : len.toInt = if 2 * len.toUInt32.toNat < 2 ^ 32 then (len.toUInt32.toNat : Int)
      else (len.toUInt32.toNat : Int) - (2 ^ 32 : Nat) := BitVec.toInt_eq_toNat_cond len.toBitVec
  split at h <;> omega

/-- A length that is not negative takes bytes off the front as long as the sum does not wrap. A negative one moves the
offset back, or to the end, where there are no bytes that this could take away. -/
theorem cutData_iff (h : Holds b l) (len : Int32) : Holds (b.cutData len) (l.drop len.toInt.toNat) ↔
    (0 ≤ len.toInt ∧ b.offset + len.toInt < 2 ^ 32) ∨ len.toInt < 0 ∧ b.offset = b.pos ∧ b.offset < -len.toInt := by
  have hlen := h.length_eq
  have hoff := h.offset_le
  have hpos := h.pos_le
  have hs := b.size_lt
  have hcut : Holds (b.cutData len) (l.drop len.toInt.toNat) ↔ cut b len = b.offset + min len.toInt.toNat l.length := by
    constructor
    · intro hc
      have hle := cut_le b len
      have hl := h.length_cutData len
      rw [hc.exposed, List.length_drop] at hl
      omega
    · intro hc
      have hd := h.drop (n := min len.toInt.toNat l.length) (Nat.min_le_right _ _)
      have hdrop : l.drop (min len.toInt.toNat l.length) = l.drop len.toInt.toNat := by
        rcases Nat.le_total len.toInt.toNat l.length with hle | hle
        · rw [Nat.min_eq_left hle]
        · rw [Nat.min_eq_right hle, List.drop_of_length_le (Nat.le_refl _), List.drop_of_length_le hle]
      rw [hdrop, ← hc] at hd
      exact hd
  have hmax := len.toInt_lt
  have hmin := len.le_toInt
  rw [hcut]
  clear hcut
  unfold cut u32
  rcases toNat_toUInt32 len with ⟨hneg, hu⟩ | ⟨hneg, hu⟩ <;> split <;> omega

end Holds

/-! ## Any number of buffers -/

inductive Op where
  | write (i : Nat) (data : { data : List UInt8 // data.length < 2 ^ 32 }) (garbage : Nat → UInt8)
  | read (i : Nat) (len : UInt32)
  | cutData (i : Nat) (len : Int32)
  | clear (i : Nat) (garbage : Nat → UInt8)
  | swap (i j : Nat)

def swap {β : Type} (bs : Nat → β) (i j : Nat) : Nat → β := Function.update (Function.update bs i (bs j)) j (bs i)

/-- The buffers afterwards and the bytes that a `Read` has copied. -/
def step (bs : Nat → RawBuffer) : Op → Except Fault ((Nat → RawBuffer) × Option (List UInt8))
  | .write i data garbage => do return (Function.update bs i (← (bs i).write data.val garbage), none)
  | .read i len => do
      let r ← (bs i).read len
      return (Function.update bs i r.1, r.2)
  | .cutData i len => .ok (Function.update bs i ((bs i).cutData len), none)
  | .clear i garbage => .ok (Function.update bs i ((bs i).clear garbage), none)
  | .swap i j => .ok (swap bs i j, none)

/-- What the operations are for: bytes come out in the order in which they went in. -/
def fifo (ls : Nat → List UInt8) : Op → (Nat → List UInt8) × Option (List UInt8)
  | .write i data _ => (Function.update ls i (ls i ++ data.val), none)
  | .read i len =>
      if len.toNat ≤ (ls i).length then
        (Function.update ls i ((ls i).drop len.toNat), some ((ls i).take len.toNat))
      else (ls, none)
  | .cutData i len => (Function.update ls i ((ls i).drop len.toInt.toNat), none)
  | .clear i _ => (Function.update ls i [], none)
  | .swap i j => (swap ls i j, none)

/-- When an operation does to a buffer what it is for. -/
def Allowed (bs : Nat → RawBuffer) : Op → Prop
  | .write i data _ => (bs i).pos + data.val.length ≤ (bs i).size ∨
      (bs i).pos + data.val.length < 2 ^ 32 - M_BUFFER_DEFAILT_SIZE
  | .read i len => (bs i).offset + len.toNat < 2 ^ 32
  | .cutData i len => (0 ≤ len.toInt ∧ (bs i).offset + len.toInt < 2 ^ 32) ∨
      len.toInt < 0 ∧ (bs i).offset = (bs i).pos ∧ (bs i).offset < -len.toInt
  | .clear _ _ => True
  | .swap _ _ => True

/-- The buffers and the bytes that they should have, with what the last `Read` has copied and should have. -/
structure Compared where
  lists : Nat → List UInt8
  buffers : Nat → RawBuffer
  expected : Option (List UInt8)
  copied : Option (List UInt8)

def both (c : Compared) (op : Op) : Option Compared :=
  match step c.buffers op with
  | .ok r => some { lists := (fifo c.lists op).1, buffers := r.1, expected := (fifo c.lists op).2, copied := r.2 }
  | .error _ => none

def Sound (c : Compared) : Prop := c.copied = c.expected ∧ ∀ i, Holds (c.buffers i) (c.lists i)

def Good (r : Option Compared) : Prop := ∃ c, r = some c ∧ Sound c

variable {c : Compared} {op : Op} {i : Nat}

theorem both_of_ok {r : (Nat → RawBuffer) × Option (List UInt8)} (h : step c.buffers op = .ok r) : both c op =
    some { lists := (fifo c.lists op).1, buffers := r.1, expected := (fifo c.lists op).2, copied := r.2 } := by
  rw [both, h]

theorem not_good_of_error {f : Fault} (h : step c.buffers op = .error f) : ¬ Good (both c op) := by
  intro hg
  obtain ⟨c', hc, -⟩ := hg
  rw [both, h] at hc
  cases hc

theorem holds_update {bs : Nat → RawBuffer} {ls : Nat → List UInt8} (h : ∀ i, Holds (bs i) (ls i)) {b : RawBuffer}
    {l : List UInt8} (hb : Holds b l) (k : Nat) : Holds (Function.update bs i b k) (Function.update ls i l k) := by
  rcases eq_or_ne k i with rfl | hne
  · rwa [Function.update_self, Function.update_self]
  · rw [Function.update_of_ne hne, Function.update_of_ne hne]
    exact h k

theorem step_write (h : Sound c) (data : { data : List UInt8 // data.length < 2 ^ 32 }) (garbage : Nat → UInt8) :
    (Allowed c.buffers (.write i data garbage) ∧ ∃ c', both c (.write i data garbage) = some c' ∧ Sound c') ∨
      ¬ Allowed c.buffers (.write i data garbage) ∧ ¬ Good (both c (.write i data garbage)) := by
  have hok := (h.2 i).write_ok_iff data.val garbage
  cases hw : (c.buffers i).write data.val garbage with
  | ok b' =>
    have hstep : step c.buffers (.write i data garbage) = .ok (Function.update c.buffers i b', none) := by
      rw [step, hw]
      rfl
    exact .inl ⟨hok.mp ⟨b', hw⟩, _, both_of_ok hstep, rfl, holds_update h.2 ((h.2 i).write hw)⟩
  | error f =>
    have hstep : step c.buffers (.write i data garbage) = .error f := by
      rw [step, hw]
      rfl
    refine .inr ⟨fun ha => ?_, not_good_of_error hstep⟩
    obtain ⟨b', hb⟩ := hok.mpr ha
    rw [hw] at hb
    cases hb

theorem step_read (h : Sound c) (len : UInt32) :
    (Allowed c.buffers (.read i len) ∧ ∃ c', both c (.read i len) = some c' ∧ Sound c') ∨
      ¬ Allowed c.buffers (.read i len) ∧ ¬ Good (both c (.read i len)) := by
  by_cases hlt : (c.buffers i).offset + len.toNat < 2 ^ 32
  · obtain ⟨b', hread, hb'⟩ := (h.2 i).read len hlt
    have hstep : step c.buffers (.read i len) = .ok (Function.update c.buffers i b',
        if len.toNat ≤ (c.lists i).length then some ((c.lists i).take len.toNat) else none) := by
      rw [step, hread]
      rfl
    refine .inl ⟨hlt, _, both_of_ok hstep, ?_, fun k => ?_⟩
    · unfold fifo
      dsimp only
      split <;> rfl
    · have hup := holds_update (i := i) h.2 hb' k
      unfold fifo
      dsimp only
      split <;> rename_i hle
      · rwa [if_pos hle] at hup
      · rwa [if_neg hle, Function.update_eq_self] at hup
  · refine .inr ⟨hlt, not_good_of_error (f := .outOfBounds) ?_⟩
    rw [step, (h.2 i).read_error hlt]
    rfl

theorem step_cutData (h : Sound c) (len : Int32) :
    (Allowed c.buffers (.cutData i len) ∧ ∃ c', both c (.cutData i len) = some c' ∧ Sound c') ∨
      ¬ Allowed c.buffers (.cutData i len) ∧ ¬ Good (both c (.cutData i len)) := by
  have hiff := (h.2 i).cutData_iff len
  by_cases ha : Allowed c.buffers (.cutData i len)
  · exact .inl ⟨ha, _, both_of_ok rfl, rfl, holds_update h.2 (hiff.mpr ha)⟩
  · refine .inr ⟨ha, fun hg => ha (hiff.mp ?_)⟩
    obtain ⟨c', hc, -, hall⟩ := hg
    rw [both_of_ok rfl] at hc
    cases hc
    have hi := hall i
    simpa [fifo] using hi

theorem step_cases (h : Sound c) (op : Op) :
    (Allowed c.buffers op ∧ ∃ c', both c op = some c' ∧ Sound c') ∨ ¬ Allowed c.buffers op ∧ ¬ Good (both c op) := by
  cases op with
  | write i data garbage => exact step_write h data garbage
  | read i len => exact step_read h len
  | cutData i len => exact step_cutData h len
  | clear i garbage => exact .inl ⟨trivial, _, both_of_ok rfl, rfl, holds_update h.2 (.clear _ garbage)⟩
  | swap i j => exact .inl ⟨trivial, _, both_of_ok rfl, rfl, fun k => holds_update (holds_update h.2 (h.2 j)) (h.2 i) k⟩

def start (garbage : Nat → Nat → UInt8) : Compared :=
  { lists := fun _ => [], buffers := fun i => init (garbage i), expected := none, copied := none }

def run (garbage : Nat → Nat → UInt8) (ops : List Op) : Option Compared :=
  ops.foldl (fun r op => r.bind fun c => both c op) (some (start garbage))

/-- After every operation of a run the buffers have the bytes that they should exactly when all its operations are
allowed. -/
theorem fifo_iff (garbage : Nat → Nat → UInt8) (ops : List Op) :
    (∀ t op, t ++ [op] <+: ops → Good (run garbage (t ++ [op]))) ↔
      ∀ t op, t ++ [op] <+: ops → ∀ c, run garbage t = some c → Allowed c.buffers op := by
  apply Runs.good_foldl_iff (I := Sound) (M := fun c op => Allowed c.buffers op)
  · exact ⟨rfl, fun i => .init _⟩
  · exact fun c h => ⟨c, rfl, h⟩
  · exact fun c op h => step_cases h op

def readAndCut : Option Compared :=
  run (fun _ _ => 0) [.write 0 ⟨[7, 8], by decide⟩ (fun _ => 0), .read 0 1, .cutData 0 (-1)]

/-- A byte that has been read is there again after `CutData(-1)`. -/
theorem cutData_brings_back :
    (readAndCut.map fun c => ((c.buffers 0).exposed, c.lists 0)) = some ([7, 8], [8]) ∧ ¬ Good readAndCut := by
  have hobs : (readAndCut.map fun c => ((c.buffers 0).exposed, c.lists 0)) = some ([7, 8], [8]) := by decide +kernel
  refine ⟨hobs, fun hg => ?_⟩
  obtain ⟨c, hc, -, hall⟩ := hg
  rw [hc, Option.map_some, Option.some.injEq, Prod.mk.injEq] at hobs
  have hexposed := (hall 0).exposed
  rw [hobs.1, hobs.2] at hexposed
  cases hexposed

end RawBuffer

end GlobalServer
