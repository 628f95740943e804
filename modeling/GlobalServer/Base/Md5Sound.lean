import GlobalServer.Base.Md5
import GlobalServer.Lib.Blocks
import GlobalServer.Lib.Layout
import GlobalServer.Lib.Results
import Mathlib.Data.List.Induction

/-!
# What `MD5` digests

However a message is cut into calls of `_update`, the digest is the fold of
`MD5Transform` over the blocks of the padded message. The loop of `_update` runs
past its input only where `i + 63` wraps.
-/

namespace GlobalServer

open Bytes MD5Helper Blocks

namespace MD5_CTX

def iv : State := ⟨0x67452301, 0xefcdab89, 0x98badcfe, 0x10325476⟩

/-- Where the loop of `_update` ends, when it does. -/
def loopEnd (len i : Nat) : Nat := i + 64 * ((len - i) / 64)

theorem transformLoop_eq {input : List UInt8} (hlen : input.length < 2 ^ 32) (s : State) (i : Nat)
    (hi : i ≤ input.length) :
    transformLoop input s i =
      if loopEnd input.length i + 63 < 2 ^ 32 then
        .ok ((absorb transform 64 s (input.drop i)).1, loopEnd input.length i)
      else .error .outOfBounds := by
  fun_induction transformLoop input s i with
  | case1 s i hu hl ih =>
    have he : loopEnd input.length (i + 64) = loopEnd input.length i := by unfold loopEnd; omega
    have hd : 64 ≤ (input.drop i).length := by rw [List.length_drop]; omega
    rw [ih hl, he, absorb_step (by decide) hd, List.drop_drop]
  | case2 s i hu hl =>
    have he : loopEnd input.length i = i := by unfold loopEnd; omega
    unfold u32 at hu
    rw [he, if_neg (by omega)]
  | case3 s i hu =>
    unfold u32 at hu
    have hlt : input.length - i < 64 := by omega
    have he : loopEnd input.length i = i := by unfold loopEnd; omega
    rw [he, if_pos (by omega), absorb_short (by rw [List.length_drop]; exact hlt)]

theorem absorb_drop_snd (s : State) (l : List UInt8) :
    (absorb transform 64 s l).2 = l.drop (64 * (l.length / 64)) := by
  fun_induction absorb transform 64 s l with
  | case1 s l h ih =>
    rw [ih, List.length_drop, List.drop_drop]
    congr 1
    omega
  | case2 s l h =>
    have hz : l.length / 64 = 0 := by omega
    rw [hz, Nat.mul_zero, List.drop_zero]

/-- The context has taken `msg`: what is not a whole block of it stands at the front of the buffer. -/
structure Holds (m : MD5_CTX) (msg : List UInt8) : Prop where
  buffer : m.buffer.length = 64
  count : m.count0.toNat + 2 ^ 32 * m.count1.toNat = 8 * msg.length % 2 ^ 64
  state : absorb transform 64 iv msg = (m.state, m.buffer.take m.index)

theorem index_eq {m : MD5_CTX} : m.index = m.count0.toNat / 8 % 64 := by
  have h63 : (0x3F : UInt32).toNat = 2 ^ 6 - 1 := rfl
  rw [index, UInt32.toNat_and, UInt32.toNat_shiftRight, h63, Nat.and_two_pow_sub_one_eq_mod, Nat.shiftRight_eq_div_pow]
  rfl

theorem Holds.index {m : MD5_CTX} {msg : List UInt8} (h : m.Holds msg) : m.index = msg.length % 64 := by
  have hc := h.count
  have h0 := m.count0.toNat_lt
  have h1 := m.count1.toNat_lt
  rw [index_eq]
  omega

theorem count_counted (m : MD5_CTX) {n : Nat} (hn : n < 2 ^ 32) :
    (m.counted (UInt32.ofNat n)).count0.toNat + 2 ^ 32 * (m.counted (UInt32.ofNat n)).count1.toNat =
      (m.count0.toNat + 2 ^ 32 * m.count1.toNat + 8 * n) % 2 ^ 64 := by
  have h0 := m.count0.toNat_lt
  have h1 := m.count1.toNat_lt
  have hl : (UInt32.ofNat n <<< 3).toNat = 8 * n % 2 ^ 32 := by
    rw [UInt32.toNat_shiftLeft, UInt32.toNat_ofNat_of_lt' hn, Nat.shiftLeft_eq]
    show n * 2 ^ 3 % 2 ^ 32 = _
    omega
  have hr : (UInt32.ofNat n >>> 29).toNat = n / 2 ^ 29 := by
    rw [UInt32.toNat_shiftRight, UInt32.toNat_ofNat_of_lt' hn, Nat.shiftRight_eq_div_pow]
    rfl
  unfold counted
  simp only [UInt32.lt_iff_toNat_lt, UInt32.toNat_add, hl, hr]
  split
  · rw [UInt32.toNat_add]
    show _ + 2 ^ 32 * (((m.count1.toNat + 1) % 2 ^ 32 + n / 2 ^ 29) % 2 ^ 32) = _
    omega
  · omega

@[simp] theorem index_counted_buffer (m : MD5_CTX) (n : UInt32) : (m.counted n).buffer = m.buffer := rfl

@[simp] theorem state_counted (m : MD5_CTX) (n : UInt32) : (m.counted n).state = m.state := rfl

/-- `_update` of so many bytes would read past them. -/
def Overruns (index len : Nat) : Prop := 64 - index ≤ len ∧ 2 ^ 32 ≤ loopEnd len (64 - index) + 63

theorem not_overruns {index len : Nat} (h : len + 63 < 2 ^ 32) : ¬ Overruns index len := by
  unfold Overruns loopEnd; omega

theorem not_overruns_zero {len : Nat} (h : len < 2 ^ 32) : ¬ Overruns 0 len := by
  unfold Overruns loopEnd; omega

theorem index_of_init (buffer : List UInt8) : (init buffer).index = 0 := by
  simp [index, init]

/-- What the blocks leave of the message has the right length, so that it is enough for it to stand at the front. -/
theorem holds_of {m : MD5_CTX} {msg kept : List UInt8} (hb : m.buffer.length = 64)
    (hc : m.count0.toNat + 2 ^ 32 * m.count1.toNat = 8 * msg.length % 2 ^ 64)
    (ha : absorb transform 64 iv msg = (m.state, kept)) (hk : kept <+: m.buffer) : m.Holds msg := by
  have h0 := m.count0.toNat_lt
  have h1 := m.count1.toNat_lt
  have hl : kept.length = msg.length % 64 := by
    rw [← length_absorb (f := transform) (by decide) iv, ha]
  have hi : m.index = kept.length := by
    rw [index_eq, hl]
    omega
  exact ⟨hb, hc, by rw [ha, hi, ← List.prefix_iff_eq_take.mp hk]⟩

theorem holds_init {buffer : List UInt8} (h : buffer.length = 64) : (init buffer).Holds [] :=
  holds_of h rfl (absorb_short (by decide)) List.nil_prefix

section
variable {m : MD5_CTX} {msg input : List UInt8} (h : m.Holds msg) (hlen : input.length < 2 ^ 32)
include h hlen

theorem Holds.counted : (m.counted (UInt32.ofNat input.length)).count0.toNat +
    2 ^ 32 * (m.counted (UInt32.ofNat input.length)).count1.toNat = 8 * (msg ++ input).length % 2 ^ 64 := by
  rw [count_counted m hlen, h.count, List.length_append]
  omega

theorem Holds.update_short (hs : input.length < 64 - m.index) :
    ∃ m', m.update input = .ok m' ∧ m'.Holds (msg ++ input) := by
  have hb := h.buffer
  have ha : absorb transform 64 iv (msg ++ input) = (m.state, m.buffer.take m.index ++ input) := by
    rw [absorb_append (by decide), h.state]
    refine absorb_short ?_
    rw [List.length_append, List.length_take]
    omega
  have hk : m.buffer.take m.index ++ input <+: write m.buffer m.index input := by
    rw [← take_write (by omega)]
    exact List.take_prefix _ _
  refine ⟨_, if_neg (by omega), holds_of ?_ (h.counted hlen) ha hk⟩
  exact (length_write (by omega)).trans hb

omit h hlen in
theorem update_of_fills (hs : 64 - m.index ≤ input.length) :
    m.update input =
      (transformLoop input (transform m.state (write m.buffer m.index (input.take (64 - m.index)))) (64 - m.index)).bind
        fun p => .ok { m.counted (UInt32.ofNat input.length) with
          state := p.1
          buffer := write (write m.buffer m.index (input.take (64 - m.index))) 0 (input.drop p.2) } :=
  if_pos hs

theorem Holds.update_long (hs : 64 - m.index ≤ input.length) :
    if 2 ^ 32 ≤ loopEnd input.length (64 - m.index) + 63 then m.update input = .error .outOfBounds
    else ∃ m', m.update input = .ok m' ∧ m'.Holds (msg ++ input) := by
  have hb := h.buffer
  have hix := h.index
  have hp : (input.take (64 - m.index)).length = 64 - m.index := List.length_take_of_le hs
  rw [update_of_fills hs, transformLoop_eq hlen _ _ hs]
  generalize hfill : write m.buffer m.index (input.take (64 - m.index)) = filled
  have hfl : filled.length = 64 := by rw [← hfill, length_write (by omega), hb]
  have hf : filled = m.buffer.take m.index ++ input.take (64 - m.index) := by
    rw [← take_write (by omega), hfill, List.take_of_length_le (by omega)]
  generalize hend : loopEnd input.length (64 - m.index) = e
  have ha : absorb transform 64 iv (msg ++ input) = absorb transform 64 (transform m.state filled)
      (input.drop (64 - m.index)) := by
    rw [absorb_append (by decide), h.state, ← absorb_cons_block (by decide) hfl, hf, List.append_assoc,
      List.take_append_drop]
  have hrest : (absorb transform 64 (transform m.state filled) (input.drop (64 - m.index))).2 = input.drop e := by
    rw [absorb_drop_snd, List.drop_drop, List.length_drop, ← hend]
    rfl
  split
  · rename_i ho
    rw [if_neg (by omega)]
    rfl
  · rename_i ho
    have hk : input.drop e <+: write filled 0 (input.drop e) := by
      have ht := @take_write filled (input.drop e) 0 (Nat.zero_le _)
      rw [List.take_zero, List.nil_append] at ht
      conv => lhs; rw [← ht]
      exact List.take_prefix _ _
    have hdl : (input.drop e).length ≤ 64 := by
      rw [List.length_drop, ← hend]; unfold loopEnd; omega
    rw [if_pos (by omega)]
    refine ⟨_, rfl, holds_of ?_ (h.counted hlen) ?_ hk⟩
    · exact (length_write (show 0 + (input.drop e).length ≤ filled.length by omega)).trans hfl
    · rw [ha, ← hrest]

/-- `_update` takes the input, or reads past its end where the index of its loop wraps. -/
theorem Holds.update_iff :
    (¬ Overruns m.index input.length ∧ ∃ m', m.update input = .ok m' ∧ m'.Holds (msg ++ input)) ∨
      Overruns m.index input.length ∧ m.update input = .error .outOfBounds := by
  by_cases hs : 64 - m.index ≤ input.length
  · have hl := h.update_long hlen hs
    split at hl
    · rename_i ho
      exact .inr ⟨⟨hs, ho⟩, hl⟩
    · rename_i ho
      exact .inl ⟨fun hov => ho hov.2, hl⟩
  · exact .inl ⟨fun hov => hs hov.1, h.update_short hlen (Nat.not_le.mp hs)⟩

end

/-! ## The digest -/

/-- So much padding goes behind a message of `len` bytes, before its length. -/
def padLen (len : Nat) : Nat := if len % 64 < 56 then 56 - len % 64 else 120 - len % 64

/-- The message, a one, as many zeros as fill a block but for eight bytes, and the number of bits. -/
def padded (msg : List UInt8) : List UInt8 :=
  msg ++ (PADDING.take (padLen msg.length) ++ leBytes 8 (8 * msg.length % 2 ^ 64))

def encodeState (s : State) : List UInt8 := encode [s.a, s.b, s.c, s.d]

/-- The transform over the blocks of the padded message. -/
def digestOf (msg : List UInt8) : List UInt8 := encodeState (absorb transform 64 iv (padded msg)).1

theorem length_padding (len : Nat) : (PADDING.take (padLen len)).length = padLen len := by
  rw [List.length_take]
  show min _ 64 = _
  unfold padLen
  split <;> omega

theorem absorb_padded (msg : List UInt8) : (absorb transform 64 iv (padded msg)).2 = [] := by
  apply List.eq_nil_of_length_eq_zero
  rw [length_absorb (by decide), padded, List.length_append, List.length_append, length_padding, length_leBytes]
  unfold padLen
  split <;> omega

theorem encodeWord_eq (w : UInt32) : encodeWord w = leBytes 4 w.toNat := by
  have h255 : (0xff : UInt32).toNat = 2 ^ 8 - 1 := rfl
  have low : ∀ v : UInt32, (v &&& 0xff).toUInt8 = UInt8.ofNat v.toNat := by
    intro v
    apply UInt8.toNat_inj.mp
    rw [UInt32.toNat_toUInt8, UInt32.toNat_and, h255, Nat.and_two_pow_sub_one_eq_mod, UInt8.toNat_ofNat', Nat.mod_mod]
  simp only [encodeWord, leBytes, low, UInt32.toNat_shiftRight, Nat.shiftRight_eq_div_pow, Nat.div_div_eq_div_mul]
  rfl

theorem length_encodeState (s : State) : (encodeState s).length = 16 := by
  simp [encodeState, encode, encodeWord]

theorem Holds.bits {m : MD5_CTX} {msg : List UInt8} (h : m.Holds msg) :
    encode [m.count0, m.count1] = leBytes 8 (8 * msg.length % 2 ^ 64) := by
  have h0 := m.count0.toNat_lt
  have hd : (m.count0.toNat + 2 ^ 32 * m.count1.toNat) / 256 ^ 4 = m.count1.toNat := by omega
  have hl : leBytes 4 (m.count0.toNat + 2 ^ 32 * m.count1.toNat) = leBytes 4 m.count0.toNat := by
    rw [← leBytes_mod 4]
    congr 1
    omega
  rw [← h.count, leBytes_add 4 4, hd, hl]
  simp [encode, encodeWord_eq]

theorem Holds.final {m : MD5_CTX} {msg : List UInt8} (h : m.Holds msg) : m.final = .ok (digestOf msg) := by
  have hpad : (if m.index < 56 then 56 - m.index else 120 - m.index) = padLen msg.length := by
    rw [h.index]
    rfl
  have hl := length_padding msg.length
  have hle : padLen msg.length ≤ 64 := by unfold padLen; split <;> omega
  have step : ∀ {m : MD5_CTX} {msg input : List UInt8}, m.Holds msg → input.length ≤ 64 →
      ∃ m', m.update input = .ok m' ∧ m'.Holds (msg ++ input) := by
    intro m msg input hm hi
    rcases hm.update_iff (show input.length < 2 ^ 32 by omega) with ⟨-, hok⟩ | ⟨ho, -⟩
    · exact hok
    · exact absurd ho (not_overruns (by omega))
  obtain ⟨m₁, h₁, hm₁⟩ := step h (show (PADDING.take (padLen msg.length)).length ≤ 64 by omega)
  obtain ⟨m₂, h₂, hm₂⟩ := step hm₁ (show (leBytes 8 (8 * msg.length % 2 ^ 64)).length ≤ 64 by rw [length_leBytes]; decide)
  unfold MD5_CTX.final
  simp only [hpad, h.bits, h₁, h₂, Except.ok_bind]
  have hs := hm₂.state
  rw [List.append_assoc] at hs
  rw [digestOf, padded, hs]
  rfl

theorem updates_holds {buffer : List UInt8} (hb : buffer.length = 64) (pieces : List (List UInt8))
    (hp : ∀ p ∈ pieces, p.length + 63 < 2 ^ 32) :
    ∃ m, pieces.foldlM update (init buffer) = .ok m ∧ m.Holds pieces.flatten := by
  induction pieces using List.reverseRecOn with
  | nil => exact ⟨_, rfl, holds_init hb⟩
  | append_singleton pieces p ih =>
    obtain ⟨m, hm, hh⟩ := ih fun q hq => hp q (by simp [hq])
    have hpl := hp p (by simp)
    rcases hh.update_iff (show p.length < 2 ^ 32 by omega) with ⟨-, m', hu, hh'⟩ | ⟨ho, -⟩
    · refine ⟨m', ?_, ?_⟩
      · rw [List.foldlM_append, hm, Except.ok_bind, List.foldlM_cons, hu, Except.ok_bind, List.foldlM_nil]
        rfl
      · simpa using hh'
    · exact absurd ho (not_overruns hpl)

/-- However the message is cut, the digest is that of the whole. -/
theorem updates_final {buffer : List UInt8} (hb : buffer.length = 64) (pieces : List (List UInt8))
    (hp : ∀ p ∈ pieces, p.length + 63 < 2 ^ 32) :
    (pieces.foldlM update (init buffer)).bind final = .ok (digestOf pieces.flatten) ∧
      (absorb transform 64 iv (padded pieces.flatten)).2 = [] := by
  obtain ⟨m, hm, hh⟩ := updates_holds hb pieces hp
  exact ⟨by rw [hm]; exact hh.final, absorb_padded _⟩

theorem updates_final_abc :
    ([[0x61], [], [0x62, 0x63]].foldlM update (init (List.replicate 64 0))).bind final =
        .ok (digestOf [0x61, 0x62, 0x63]) ∧
      (absorb transform 64 iv (padded [0x61, 0x62, 0x63])).2 = [] :=
  updates_final (List.length_replicate ..) [[0x61], [], [0x62, 0x63]] (by decide)

end MD5_CTX

namespace MD5

open MD5_CTX

/-! ## Whole strings -/

/-- The bytes that `encrypt` digests, `strlen` being put into an `unsigned int`. -/
def digested (input : List UInt8) : List UInt8 := input.take (u32 input.length)

theorem encrypt_eq {buffer : List UInt8} (hb : buffer.length = 64) (input : List UInt8) :
    encrypt buffer input = .ok { digest := digestOf (digested input) ++ [0] } := by
  have hlt : (digested input).length < 2 ^ 32 := by
    rw [digested, List.length_take]
    exact Nat.lt_of_le_of_lt (Nat.min_le_left _ _) (u32_lt _)
  have hw : write (List.replicate 17 0) 0 (digestOf (digested input)) = digestOf (digested input) ++ [0] := by
    rw [show List.replicate 17 (0 : UInt8) = List.replicate 16 0 ++ [0] from rfl]
    exact write_front (by rw [digestOf, length_encodeState, List.length_replicate])
  have h := (holds_init hb).update_iff hlt
  rw [index_of_init] at h
  rcases h with ⟨-, m, hu, hm⟩ | ⟨ho, -⟩
  · unfold encrypt
    rw [show input.take (u32 input.length) = digested input from rfl, hu, Except.ok_bind, hm.final, Except.ok_bind,
      List.nil_append, hw]
  · exact absurd ho (not_overruns_zero hlt)

/-! ## Hexadecimal digits -/

def hexByte (x : UInt8) : List Char :=
  [hexDigits.getD ((x &&& 0xF0) >>> 4).toNat '0', hexDigits.getD (x &&& 0x0F).toNat '0']

theorem toNat_high (x : UInt8) : ((x &&& 0xF0) >>> 4).toNat = x.toNat / 16 := by
  have hx := x.toNat_lt
  have h15 : (0xF0 : UInt8).toNat >>> 4 = 2 ^ 4 - 1 := rfl
  rw [UInt8.toNat_shiftRight, UInt8.toNat_and]
  show (x.toNat &&& (0xF0 : UInt8).toNat) >>> 4 = _
  rw [Nat.shiftRight_and_distrib, h15, Nat.and_two_pow_sub_one_eq_mod, Nat.shiftRight_eq_div_pow]
  omega

theorem toNat_low (x : UInt8) : (x &&& 0x0F).toNat = x.toNat % 16 := by
  have h15 : (0x0F : UInt8).toNat = 2 ^ 4 - 1 := rfl
  rw [UInt8.toNat_and, h15, Nat.and_two_pow_sub_one_eq_mod]

theorem hexDigits_inj : ∀ i j : Fin 16, hexDigits.getD i.1 '0' = hexDigits.getD j.1 '0' → i = j := by decide

theorem hexByte_inj {x y : UInt8} (h : hexByte x = hexByte y) : x = y := by
  have hx := x.toNat_lt
  have hy := y.toNat_lt
  simp only [hexByte, toNat_high, toNat_low, List.cons.injEq, and_true] at h
  have hh := hexDigits_inj ⟨x.toNat / 16, by omega⟩ ⟨y.toNat / 16, by omega⟩ h.1
  have hl := hexDigits_inj ⟨x.toNat % 16, by omega⟩ ⟨y.toNat % 16, by omega⟩ h.2
  simp only [Fin.mk.injEq] at hh hl
  apply UInt8.toNat_inj.mp
  omega

theorem flatten_hex_inj : ∀ {d e : List UInt8}, (d.map hexByte).flatten = (e.map hexByte).flatten → d = e
  | [], [], _ => rfl
  | [], _ :: _, h => by simp [hexByte] at h
  | _ :: _, [], h => by simp [hexByte] at h
  | x :: d, y :: e, h => by
    rw [List.map_cons, List.map_cons, List.flatten_cons, List.flatten_cons] at h
    obtain ⟨hxy, hde⟩ := List.append_inj h rfl
    rw [hexByte_inj hxy, flatten_hex_inj hde]

theorem length_flatten_hex (d : List UInt8) : (d.map hexByte).flatten.length = 2 * d.length := by
  induction d with
  | nil => rfl
  | cons x d ih =>
    rw [List.map_cons, List.flatten_cons, List.length_append, ih, List.length_cons]
    show 2 + _ = _
    omega

/-- What the constructors make: 16 bytes and a zero behind them. -/
inductive Made : MD5 → Prop
  | init : Made init
  | encrypt {buffer input : List UInt8} {m : MD5} : buffer.length = 64 → encrypt buffer input = .ok m → Made m

theorem Made.digest {m : MD5} (h : Made m) : ∃ d : List UInt8, d.length = 16 ∧ m.digest = d ++ [0] := by
  cases h with
  | init => exact ⟨List.replicate 16 0, rfl, rfl⟩
  | encrypt hb he =>
    rw [encrypt_eq hb] at he
    cases he
    exact ⟨_, length_encodeState _, rfl⟩

theorem toString_eq {m : MD5} {d : List UInt8} (hl : d.length = 16) (hd : m.digest = d ++ [0]) :
    m.toString = (d.map hexByte).flatten := by
  unfold toString
  rw [hd, ← hl, List.take_left' rfl]
  rfl

theorem eq_iff_toString {m n : MD5} (hm : Made m) (hn : Made n) :
    (m.eq n = true ↔ m.toString = n.toString) ∧ m.toString.length = 32 := by
  obtain ⟨d, hdl, hd⟩ := hm.digest
  obtain ⟨e, hel, he⟩ := hn.digest
  rw [toString_eq hdl hd, toString_eq hel he]
  refine ⟨⟨fun h => ?_, fun h => ?_⟩, by rw [length_flatten_hex, hdl]⟩
  · unfold eq at h
    rw [beq_iff_eq, hd, he] at h
    rw [List.append_cancel_right h]
  · unfold eq
    rw [beq_iff_eq, hd, he, flatten_hex_inj h]

/-- Two strings give equal objects, and the same 32 digits, exactly when what is digested of them has one digest. -/
theorem encrypt_agree {buffer buffer' : List UInt8} (hb : buffer.length = 64) (hb' : buffer'.length = 64)
    (s t : List UInt8) : ∃ m n, encrypt buffer s = .ok m ∧ encrypt buffer' t = .ok n ∧
      (m.eq n = true ↔ digestOf (digested s) = digestOf (digested t)) ∧
      (m.toString = n.toString ↔ digestOf (digested s) = digestOf (digested t)) ∧ m.toString.length = 32 := by
  refine ⟨_, _, encrypt_eq hb s, encrypt_eq hb' t, ?_⟩
  have h := eq_iff_toString (.encrypt hb (encrypt_eq hb s)) (.encrypt hb' (encrypt_eq hb' t))
  rw [← h.1]
  refine ⟨?_, ?_, h.2⟩
  all_goals
    unfold eq
    rw [beq_iff_eq]
    exact ⟨List.append_cancel_right, fun h => by rw [h]⟩

theorem encrypt_agree_abc :
    ∃ m n, encrypt (List.replicate 64 0) [0x61] = .ok m ∧ encrypt (List.replicate 64 7) [0x62, 0x63] = .ok n ∧
      (m.eq n = true ↔ digestOf (digested [0x61]) = digestOf (digested [0x62, 0x63])) ∧
      (m.toString = n.toString ↔ digestOf (digested [0x61]) = digestOf (digested [0x62, 0x63])) ∧
      m.toString.length = 32 :=
  encrypt_agree (List.length_replicate ..) (List.length_replicate ..) [0x61] [0x62, 0x63]

end MD5

end GlobalServer
