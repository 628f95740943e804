import GlobalServer.Netio.SyncConnectorSound
import GlobalServer.Netio.TcpStreamSound

/-!
# The two implementations of the packet format

`TcpStreamSocket` and `SyncConnector` each build and check the header on their
own. They share its layout and byte order, but not the magic code, which
`SyncConnector` neither sends nor asks for, nor the largest size.
-/

namespace GlobalServer

open Bytes PacketHeader SyncConnector

/-- The peers agree on `data`: what either sends of it the other's `_CutMsgPack` cuts to it, between two packets. -/
def Agree (s : SyncConnector) (w : Writer) (now : Nat) (data : List UInt8) : Prop :=
  (∀ sends s' bytes, s.send now data sends = .ok (some (s', bytes, true)) → ∀ r : Reader, r.msgbuffer.length = 0 →
      ∃ r', GlobalServer.cutMsgPack { r with readbuf := bytes } bytes.length = .ok (r', [data], true)) ∧
    ∀ w' bytes, sendPacket w data = .ok (w', true) → w'.msgbuffer2.data = w.msgbuffer2.data ++ bytes →
      ∀ t : SyncConnector, t.curheader.size = 0 → ∃ t',
        { t with readbuf := bytes, readsize := bytes.length, rcvbuffer := t.rcvbuffer.clear }.cutMsgPack =
          .ok (t', true) ∧ t'.rcvbuffer.rest = data

/-! ## What is sent -/

theorem sendLoop_true (sends : List (Option Nat)) : ∀ {s s' : SyncConnector} {sent bytes : List UInt8},
    s.sndbuffer.Sane → sendLoop s sent sends = some (s', bytes, true) → bytes = sent ++ s.sndbuffer.rest := by
  induction sends with
  | nil => intro s s' sent bytes _ h; cases h
  | cons o sends ih =>
    intro s s' sent bytes hs h
    cases o with
    | none => cases h
    | some n =>
      obtain ⟨h1, h2⟩ := hs.cutData (Nat.min_le_right n s.sndbuffer.length)
      simp only [sendLoop] at h
      split at h
      · rename_i h0
        rw [h1.length, h2] at h0
        have hr := List.eq_nil_of_length_eq_zero h0
        cases h
        rw [← List.take_append_drop (min n s.sndbuffer.length) s.sndbuffer.rest, hr, List.append_nil,
          List.take_take, Nat.min_self]
      · rw [ih h1 h, h2, List.append_assoc, List.take_append_drop]

theorem write_frame (b : Buffer) (now : Nat) {data : List UInt8} (h : data.length ≤ maxLen) :
    ∃ b₁ b₂, b.clear.write (sendHeader now data.length).h2n.toBytes = .ok b₁ ∧ b₁.write data = .ok b₂ ∧ b₂.Sane ∧
      b₂.rest = frame now data := by
  unfold maxLen hdrlen at h
  obtain ⟨b₁, h1⟩ := b.clear.write_of_lt (sendHeader now data.length).h2n.toBytes (by simp [hdrlen])
  obtain ⟨hs₁, hr₁, -⟩ := (Buffer.sane_clear b).write h1
  have hd := (Buffer.write_eq_ok h1).1
  obtain ⟨b₂, h2⟩ := b₁.write_of_lt data (by rw [hd]; simp [hdrlen]; omega)
  obtain ⟨hs₂, hr₂, -⟩ := hs₁.write h2
  exact ⟨b₁, b₂, h1, h2, hs₂, by rw [hr₂, hr₁, Buffer.rest_clear, List.nil_append]; rfl⟩

theorem send_true {s s' : SyncConnector} {now : Nat} {data bytes : List UInt8} {sends : List (Option Nat)}
    (h : s.send now data sends = .ok (some (s', bytes, true))) :
    s.started = true ∧ (0 < data.length ∧ data.length ≤ maxLen) ∧ bytes = frame now data := by
  unfold send at h
  split at h
  · cases h
  · rename_i hs
    split at h
    · rename_i hl
      obtain ⟨b₁, b₂, h1, h2, h3, h4⟩ := write_frame s.sndbuffer now hl.2
      rw [h1, Except.ok_bind, h2, Except.ok_bind, Except.ok.injEq] at h
      refine ⟨by simpa using hs, hl, ?_⟩
      rw [sendLoop_true sends h3 h, List.nil_append, h4]
    · cases h

theorem send_accepts {s : SyncConnector} (now : Nat) {data : List UInt8} (hs : s.started = true)
    (hl : 0 < data.length ∧ data.length ≤ maxLen) :
    ∃ s', s.send now data [some (frame now data).length] = .ok (some (s', frame now data, true)) := by
  obtain ⟨b₁, b₂, h1, h2, h3, h4⟩ := write_frame s.sndbuffer now hl.2
  have hlen : b₂.length = (frame now data).length := by rw [h3.length, h4]
  obtain ⟨h5, h6⟩ := h3.cutData (Nat.le_refl b₂.length)
  have h0 : (b₂.cutData b₂.length).length = 0 := by
    rw [h5.length, h6, h3.length, List.drop_length]
    rfl
  have ht : b₂.rest.take b₂.length = frame now data := by rw [h3.length, List.take_length, h4]
  refine ⟨{ s with sndbuffer := b₂.cutData b₂.length }, ?_⟩
  unfold send
  rw [if_neg (by simp [hs]), if_pos hl, h1, Except.ok_bind, h2, Except.ok_bind, sendLoop]
  simp only [← hlen, Nat.min_self, if_pos h0, ht, List.nil_append]

theorem sendPacket_accepts {w : Writer} {data : List UInt8} (h : checkCanSend w (data.length + hdrlen) = true) :
    ∃ w', sendPacket w data = .ok (w', true) := by
  have hc := h
  simp only [checkCanSend, Bool.and_eq_true, decide_eq_true_eq] at hc
  obtain ⟨⟨⟨-, hle⟩, -⟩, hpos⟩ := hc
  unfold M_SOCKET_PACK_SIZE E_MAX_BUFFER_SIZE Buffer.pos at *
  have hi : i32 (data.length + hdrlen) = data.length + hdrlen := i32_of_range (by omega) (by omega)
  obtain ⟨b₁, h1⟩ := w.msgbuffer2.write_of_lt (packetHeader data.length).h2n.toBytes (by
    rw [length_toBytes]; omega)
  have hd := (Buffer.write_eq_ok h1).1
  obtain ⟨b₂, h2⟩ := b₁.write_of_lt data (by rw [hd, List.length_append, length_toBytes]; omega)
  refine ⟨{ w with msgbuffer2 := b₂ }, ?_⟩
  unfold sendPacket
  rw [hi, if_pos h, h1, Except.ok_bind, h2, Except.ok_bind]

/-! ## What is cut -/

theorem ofBytes_frame (now : Nat) {p : List UInt8} (more : List UInt8) (hp : p.length < 2 ^ 32) :
    (ofBytes ((frame now p ++ more).take hdrlen)).n2h = sendHeader now p.length := by
  have hw : (sendHeader now p.length).WF := ⟨u32_lt now, hp⟩
  rw [frame, List.append_assoc]
  exact n2h_ofBytes_take hw _

section
variable {r : Reader} (hr : r.msgbuffer.length = 0)
include hr

theorem cutMsgPack_packet {data : List UInt8} (hl : data.length ≤ M_SOCKET_PACK_SIZE) :
    ∃ r', GlobalServer.cutMsgPack { r with readbuf := packet data } (packet data).length =
      .ok (r', [data], true) := by
  have hrd : read ({ r with readbuf := packet data } : Reader).readbuf 0 (packet data ++ []).length =
      .ok (packet data ++ []) := by
    rw [List.append_nil]; exact read_self _
  obtain ⟨readbuf, h1, h2, -⟩ := cutFast_whole hl hrd
  rw [List.append_nil, List.length_nil, Nat.zero_add] at h1
  have hrn : read (⟨readbuf, r.msgbuffer.clear⟩ : Reader).readbuf (packet data).length ([] : List UInt8).length =
      .ok [] := by
    rw [List.length_nil, read_of_le (by show _ ≤ readbuf.length; rw [h2]; exact Nat.le_refl _), List.take_zero]
  obtain ⟨mb, h3, -⟩ := cutFast_short (by decide) hrn rfl
  refine ⟨⟨readbuf, mb⟩, ?_⟩
  rw [GlobalServer.cutMsgPack, cutLoop_deliver (by rw [cutTurn, if_pos hr]; exact h1),
    cutLoop_brk (by rw [cutTurn, if_pos (Buffer.clear_length _)]; exact h3)]
  rfl

theorem cutMsgPack_frame {now : Nat} {data : List UInt8} (hl : data.length < 2 ^ 32) (hc : u32 now ≠ M_PACGET_CODE) :
    ∃ r', GlobalServer.cutMsgPack { r with readbuf := frame now data } (frame now data).length =
      .ok (r', [], false) := by
  have hlen := length_frame now data
  have hrd : read (frame now data) 0 hdrlen = .ok ((frame now data).take hdrlen) := by
    rw [read_of_le (by rw [hlen]; omega), List.drop_zero]
  have hh := ofBytes_frame now [] hl
  rw [List.append_nil] at hh
  have ht : (sendHeader now data.length).timestamp ≠ M_PACGET_CODE := hc
  have hf : ∃ r', cutTurn { r with readbuf := frame now data } 0 (frame now data).length = .ok (.fail r') := by
    rw [cutTurn, if_pos hr, cutFast, if_neg (by rw [hlen]; omega)]
    simp only [hrd, Except.ok_bind, hh]
    rw [if_neg (by show ¬ _ < data.length; rw [hlen]; omega), if_pos ht]
    exact ⟨_, rfl⟩
  obtain ⟨r', h⟩ := hf
  exact ⟨r', cutLoop_fail h⟩

end

section
variable {t : SyncConnector} (ht : t.curheader.size = 0) (now : Nat) {data : List UInt8}
variable (hl : data.length < 2 ^ 31 - hdrlen)
include hl

/-- What a frame comes to in `SyncConnector`, whatever its timestamp. -/
theorem feed_frame : feed (.header []) (frame now data) =
    if maxLen < data.length then .more (.body data.length []) else .got data (frame now data).length := by
  have hh := ofBytes_frame now (p := data) [] (by omega)
  rw [List.append_nil] at hh
  have ha : announced (frame now data) = data.length := by
    rw [announced, hh]
    rfl
  have hd : (frame now data).drop hdrlen = data := List.drop_left' (length_toBytes _)
  have h8 : ¬ hdrlen + data.length < hdrlen := by omega
  simp only [feed, List.length_nil, Nat.zero_add, List.nil_append, length_frame, Nat.sub_zero, ha, hd, if_neg h8]
  split
  · rfl
  · rw [feedBody, List.length_nil, Nat.zero_add, if_neg (Nat.lt_irrefl _), List.nil_append, Nat.sub_zero,
      List.take_length]

include ht in
theorem cutMsgPack_sync : ∃ t' got,
    { t with readbuf := frame now data, readsize := (frame now data).length,
             rcvbuffer := t.rcvbuffer.clear }.cutMsgPack = .ok (t', got) ∧ (got = true ↔ data.length ≤ maxLen) ∧
      (got = true → t'.rcvbuffer.rest = data) := by
  have hlt : (frame now data).length < 2 ^ 31 := by
    unfold hdrlen at hl
    rw [length_frame]; unfold hdrlen; omega
  obtain ⟨t', got, h1, -, -, h4⟩ := cutMsgPack_feed (feed_frame now hl)
    (s := { t with readbuf := frame now data, readsize := (frame now data).length, rcvbuffer := t.rcvbuffer.clear })
    ⟨⟨Buffer.sane_clear _, ht, Buffer.rest_clear _, Buffer.clear_offset _⟩, by decide⟩ trivial rfl (read_self _) hlt
  refine ⟨t', got, h1, ?_⟩
  rcases Nat.lt_or_ge maxLen data.length with hbig | hfit
  · rw [if_pos hbig] at h4
    obtain ⟨rfl, -⟩ := h4
    exact ⟨⟨fun h => by simp at h, fun h => by omega⟩, fun h => by simp at h⟩
  · rw [if_neg (Nat.not_lt.mpr hfit)] at h4
    obtain ⟨rfl, h5, -⟩ := h4
    exact ⟨⟨fun _ => hfit, fun _ => rfl⟩, fun _ => h5⟩

end

/-! ## The two directions -/

section
variable {s : SyncConnector} {w : Writer} {now : Nat} {data : List UInt8}

theorem agree_left_iff : (∀ sends s' bytes, s.send now data sends = .ok (some (s', bytes, true)) →
      ∀ r : Reader, r.msgbuffer.length = 0 →
        ∃ r', GlobalServer.cutMsgPack { r with readbuf := bytes } bytes.length = .ok (r', [data], true)) ↔
    (s.started = true → 0 < data.length → data.length ≤ maxLen → u32 now = M_PACGET_CODE) := by
  constructor
  · intro h hs h0 hl
    obtain ⟨s', hsend⟩ := send_accepts now hs ⟨h0, hl⟩
    obtain ⟨r', h1⟩ := h _ _ _ hsend Reader.init (by decide)
    by_contra hc
    obtain ⟨r₁, h2⟩ := cutMsgPack_frame (r := Reader.init) (by decide) (Nat.lt_of_le_of_lt hl (by decide)) hc
    rw [h2] at h1
    cases h1
  · intro h sends s' bytes hsend r hr
    obtain ⟨hs, ⟨h0, hl⟩, rfl⟩ := send_true hsend
    have hp : frame now data = packet data := by
      rw [frame, sendHeader, h hs h0 hl]
      rfl
    rw [hp]
    exact cutMsgPack_packet hr (by unfold maxLen at hl; unfold M_SOCKET_PACK_SIZE; omega)

theorem agree_right_iff : (∀ w' bytes, sendPacket w data = .ok (w', true) →
      w'.msgbuffer2.data = w.msgbuffer2.data ++ bytes → ∀ t : SyncConnector, t.curheader.size = 0 → ∃ t',
        { t with readbuf := bytes, readsize := bytes.length, rcvbuffer := t.rcvbuffer.clear }.cutMsgPack =
          .ok (t', true) ∧ t'.rcvbuffer.rest = data) ↔
    (checkCanSend w (data.length + hdrlen) = true → data.length ≤ maxLen) := by
  constructor
  · intro h hc
    obtain ⟨w', hw⟩ := sendPacket_accepts hc
    obtain ⟨hd, hle⟩ := sendPacket_packet hw
    obtain ⟨t', h1, -⟩ := h w' _ hw hd SyncConnector.init rfl
    have hlt : data.length < 2 ^ 31 - hdrlen := by unfold M_SOCKET_PACK_SIZE at hle; unfold hdrlen; omega
    obtain ⟨t₁, got, h2, h3, -⟩ := cutMsgPack_sync (t := SyncConnector.init) rfl M_PACGET_CODE hlt
    rw [frame_code] at h2
    rw [h2] at h1
    simp only [Except.ok.injEq, Prod.mk.injEq] at h1
    exact h3.mp h1.2
  · intro h w' bytes hw hb t ht
    obtain ⟨hd, hle⟩ := sendPacket_packet hw
    obtain rfl : bytes = packet data := List.append_cancel_left (hb.symm.trans hd)
    unfold M_SOCKET_PACK_SIZE hdrlen at hle
    have hlt : data.length < 2 ^ 31 - hdrlen := by unfold hdrlen; omega
    obtain ⟨t', got, h1, h2, h3⟩ := cutMsgPack_sync ht M_PACGET_CODE hlt
    have hl : data.length ≤ maxLen := by
      refine h ?_
      have hi : i32 (data.length + hdrlen) = data.length + hdrlen :=
        i32_of_range (by omega) (by unfold hdrlen; omega)
      unfold sendPacket at hw
      rw [hi] at hw
      split at hw
      · assumption
      · cases hw
    obtain rfl := h2.mpr hl
    exact ⟨t', h1, h3 rfl⟩

end

/-- The peers agree on a payload when the clock happens to read the magic code, and the payload is not too long for
`SyncConnector`; or where one would not send it at all. -/
theorem agree_iff (s : SyncConnector) (w : Writer) (now : Nat) (data : List UInt8) :
    Agree s w now data ↔
      (s.started = true → 0 < data.length → data.length ≤ maxLen → u32 now = M_PACGET_CODE) ∧
        (checkCanSend w (data.length + hdrlen) = true → data.length ≤ maxLen) :=
  and_congr agree_left_iff agree_right_iff

/-- One byte at a clock of 2017, and 65528 bytes from `SendPacket`. -/
theorem agree_not :
    ¬ Agree init.connect ⟨true, Buffer.init⟩ 1510272000 [65] ∧
      ¬ Agree init.connect ⟨true, Buffer.init⟩ M_PACGET_CODE (List.replicate 65528 65) := by
  constructor
  · intro h
    exact absurd (agree_left_iff.mp h.1 rfl (by decide) (by decide)) (by decide)
  · intro h
    have := agree_right_iff.mp h.2 (by rw [List.length_replicate]; decide)
    rw [List.length_replicate] at this
    exact absurd this (by decide)

end GlobalServer
