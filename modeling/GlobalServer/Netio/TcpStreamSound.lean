import GlobalServer.Netio.TcpStream

/-!
# One call of `_CutMsgPack`

The fast path hands over exactly the packets that lie inside one read. The
slow path starts its payload at the header it has converted in `msgbuffer`,
so the payload of a packet whose header was kept comes out shifted
(`slowView`), or not at all when `msgbuffer` has to move.
-/

namespace GlobalServer

open Bytes PacketHeader

/-! ## One call on well-placed bytes -/

theorem keep_eq_ok {r r' : Reader} {buf len : Nat} (h : keep r buf len = .ok r') :
    buf + len ≤ r.readbuf.length ∧ r'.readbuf = r.readbuf ∧
      r'.msgbuffer.data = r.msgbuffer.data ++ (r.readbuf.drop buf).take len ∧
      r'.msgbuffer.offset = r.msgbuffer.offset := by
  unfold keep at h
  obtain ⟨bs, hr, h⟩ := Except.bind_eq_ok.mp h
  obtain ⟨mb, hw, h⟩ := Except.bind_eq_ok.mp h
  cases h
  obtain ⟨h1, rfl, -⟩ := read_eq_ok hr
  obtain ⟨h2, h3, -⟩ := Buffer.write_eq_ok hw
  exact ⟨h1, rfl, h2, h3⟩

theorem keep_of_read {r : Reader} {buf : Nat} {bs : List UInt8} (h : read r.readbuf buf bs.length = .ok bs)
    (hl : r.msgbuffer.data.length + bs.length < 2 ^ 31) :
    ∃ mb, keep r buf bs.length = .ok { r with msgbuffer := mb } ∧ mb.data = r.msgbuffer.data ++ bs ∧
      mb.offset = r.msgbuffer.offset ∧
      (r.msgbuffer.data.length + bs.length ≤ r.msgbuffer.size → mb.size = r.msgbuffer.size) := by
  obtain ⟨mb, hw⟩ := Buffer.write_of_lt _ _ hl
  obtain ⟨h1, h2, h3, -⟩ := Buffer.write_eq_ok hw
  refine ⟨mb, by unfold keep; rw [h]; simp only [Except.bind_eq_ok]; exact ⟨bs, rfl, mb, hw, rfl⟩, h1, h2, ?_⟩
  intro hf
  rw [h3, Buffer.sizeFor, Buffer.not_grows_of_fits hf]; rfl

theorem ofBytes_packet {p more : List UInt8} (hp : p.length ≤ M_SOCKET_PACK_SIZE) :
    (ofBytes ((packet p ++ more).take hdrlen)).n2h = packetHeader p.length := by
  rw [packet, List.append_assoc]
  exact n2h_ofBytes_take (packetHeader_wf (by unfold M_SOCKET_PACK_SIZE at hp; omega)) _

theorem toBytes_packet (p more : List UInt8) :
    (packetHeader p.length).h2n.toBytes = (packet p ++ more).take hdrlen := by
  rw [packet, List.append_assoc, List.take_left' (length_toBytes _)]

theorem cutFast_short {r : Reader} {buf : Nat} {chunk : List UInt8} (h : chunk.length < hdrlen)
    (hr : read r.readbuf buf chunk.length = .ok chunk) (hd : r.msgbuffer.data = []) :
    ∃ mb, cutFast r buf chunk.length = .ok (.brk { r with msgbuffer := mb }) ∧ mb.data = chunk ∧
      mb.offset = r.msgbuffer.offset ∧ (chunk.length ≤ r.msgbuffer.size → mb.size = r.msgbuffer.size) := by
  obtain ⟨mb, hk, h1, h2, h3⟩ := keep_of_read hr (by rw [hd, List.length_nil]; unfold hdrlen at h; omega)
  rw [hd, List.nil_append] at h1
  rw [hd, List.length_nil, Nat.zero_add] at h3
  refine ⟨mb, ?_, h1, h2, h3⟩
  rw [cutFast, if_pos h, hk]; rfl

theorem toBytes_h2n_n2h {l : List UInt8} (h : l.length = hdrlen) : (ofBytes l).n2h.h2n.toBytes = l := by
  rw [h2n_n2h _ (wf_ofBytes h), toBytes_ofBytes h]

theorem read_take {m chunk : List UInt8} {buf : Nat} (hr : read m buf chunk.length = .ok chunk)
    (h : hdrlen ≤ chunk.length) : read m buf hdrlen = .ok (chunk.take hdrlen) := by
  have hr' := read_append_left (a := chunk.take hdrlen) (b := chunk.drop hdrlen) (by rwa [List.take_append_drop])
  rwa [List.length_take_of_le h] at hr'

theorem read_header {m chunk more more' p : List UInt8} {buf : Nat} (hp : p.length ≤ M_SOCKET_PACK_SIZE)
    (hr : read m buf chunk.length = .ok chunk) (hc : chunk ++ more = packet p ++ more')
    (h : hdrlen ≤ chunk.length) :
    ∃ bs, read m buf hdrlen = .ok bs ∧ (ofBytes bs).n2h = packetHeader p.length ∧
      bs = (packetHeader p.length).h2n.toBytes := by
  have ht : chunk.take hdrlen = (packet p ++ more').take hdrlen := by
    rw [← hc, List.take_append_of_le_length h]
  exact ⟨_, read_take hr h, by rw [ht, ofBytes_packet hp], by rw [ht, ← toBytes_packet]⟩

theorem cutFast_wait {r : Reader} {buf : Nat} {chunk : List UInt8} (hr : read r.readbuf buf chunk.length = .ok chunk)
    (h : hdrlen ≤ chunk.length) (hlt : chunk.length - hdrlen < (ofBytes (chunk.take hdrlen)).n2h.size)
    (hc : chunk.length < 2 ^ 31) (hd : r.msgbuffer.data = []) :
    ∃ mb, cutFast r buf chunk.length = .ok (.brk { r with msgbuffer := mb }) ∧ mb.data = chunk ∧
      mb.offset = r.msgbuffer.offset ∧ (chunk.length ≤ r.msgbuffer.size → mb.size = r.msgbuffer.size) := by
  have hb := read_take hr h
  obtain ⟨hle, he, -⟩ := read_eq_ok hb
  -- converting the header and back leaves the read buffer as it was
  have hrb : write (write r.readbuf buf (ofBytes (chunk.take hdrlen)).n2h.toBytes) buf
      (ofBytes (chunk.take hdrlen)).n2h.h2n.toBytes = r.readbuf := by
    rw [write_write (by omega) (by simp), write_self]
    rw [length_toBytes, toBytes_h2n_n2h (List.length_take_of_le h)]
    exact he.symm
  obtain ⟨mb, hk, h1, h2, h3⟩ := keep_of_read hr (by rw [hd, List.length_nil]; omega)
  rw [hd, List.nil_append] at h1
  rw [hd, List.length_nil, Nat.zero_add] at h3
  refine ⟨mb, ?_, h1, h2, h3⟩
  rw [cutFast, if_neg (by omega), hb]
  simp only [Except.bind_eq_ok]
  refine ⟨_, rfl, ?_⟩
  rw [if_pos hlt, hrb, hk]
  rfl

theorem cutFast_part {r : Reader} {buf : Nat} {chunk more more' p : List UInt8}
    (hp : p.length ≤ M_SOCKET_PACK_SIZE) (hr : read r.readbuf buf chunk.length = .ok chunk)
    (hc : chunk ++ more = packet p ++ more') (h : hdrlen ≤ chunk.length) (hlt : chunk.length < hdrlen + p.length)
    (hd : r.msgbuffer.data = []) :
    ∃ mb, cutFast r buf chunk.length = .ok (.brk { r with msgbuffer := mb }) ∧ mb.data = chunk ∧
      mb.offset = r.msgbuffer.offset ∧ (chunk.length ≤ r.msgbuffer.size → mb.size = r.msgbuffer.size) := by
  have hh : (ofBytes (chunk.take hdrlen)).n2h = packetHeader p.length := by
    rw [← List.take_append_of_le_length h, hc, ofBytes_packet hp]
  have hs : chunk.length - hdrlen < (packetHeader p.length).size := by show _ < p.length; omega
  exact cutFast_wait hr h (by rw [hh]; exact hs) (by unfold M_SOCKET_PACK_SIZE hdrlen at *; omega) hd

theorem cutFast_whole {r : Reader} {buf : Nat} {rest p : List UInt8} (hp : p.length ≤ M_SOCKET_PACK_SIZE)
    (hr : read r.readbuf buf (packet p ++ rest).length = .ok (packet p ++ rest)) :
    ∃ readbuf, cutFast r buf (packet p ++ rest).length =
        .ok (.deliver ⟨readbuf, r.msgbuffer.clear⟩ (buf + (packet p).length) rest.length p) ∧
      readbuf.length = r.readbuf.length ∧
      read readbuf (buf + (packet p).length) rest.length = .ok rest := by
  obtain ⟨bs, hb, hh, hbs⟩ := read_header hp hr (List.append_nil (packet p ++ rest))
    (by rw [List.length_append, length_packet]; omega)
  have hle := (read_eq_ok hb).1
  have hpk := read_append_left hr
  have hpay : read r.readbuf (buf + hdrlen) p.length = .ok p := by
    have := read_append_right (a := (packetHeader p.length).h2n.toBytes) (b := p) hpk
    rwa [length_toBytes] at this
  have hl : (packetHeader p.length).toBytes.length = hdrlen := length_toBytes _
  refine ⟨write r.readbuf buf (packetHeader p.length).toBytes, ?_, length_write (by omega), ?_⟩
  · have e1 : (packet p ++ rest).length = hdrlen + p.length + rest.length := by
      rw [List.length_append, length_packet]
    have e2 : hdrlen + p.length + rest.length - (hdrlen + p.length) = rest.length := by omega
    rw [cutFast, if_neg (by omega), hb]
    simp only [Except.bind_eq_ok]
    refine ⟨bs, rfl, ?_⟩
    rw [hh]
    simp only [packetHeader_timestamp, packetHeader_size, ne_eq, not_true_eq_false, if_false]
    rw [if_neg (by omega), handOver, if_neg (by omega), read_write (by rw [hl]; omega) (by rw [hl]), hpay, e1, e2,
      length_packet]
    rfl
  · rw [read_write (by omega) (by rw [length_packet]; omega)]
    exact read_append_right hr

/-! ## Whole packets and the front of the next one -/

/-- `rest` ends inside the first packet of `ps`, and `more` is what is still to come. -/
structure Front (rest more : List UInt8) (ps : List (List UInt8)) : Prop where
  eq : rest ++ more = stream ps
  short : ∀ p ∈ ps.head?, rest.length < hdrlen + p.length

theorem Front.nil {more : List UInt8} {ps : List (List UInt8)} (h : more = stream ps) : Front [] more ps :=
  ⟨by rw [h]; rfl, fun p _ => by unfold hdrlen; rw [List.length_nil]; omega⟩

/-- Bytes received so far: whole packets, then the front of the next one. -/
theorem exists_front : ∀ (ps : List (List UInt8)) (bytes more : List UInt8), bytes ++ more = stream ps →
    ∃ ps₁ ps₂ rest, ps = ps₁ ++ ps₂ ∧ bytes = stream ps₁ ++ rest ∧ Front rest more ps₂
  | [], bytes, more, h => ⟨[], [], bytes, rfl, rfl, h, fun p hp => by cases hp⟩
  | p :: ps, bytes, more, h => by
    rcases Nat.lt_or_ge bytes.length (hdrlen + p.length) with hl | hl
    · refine ⟨[], p :: ps, bytes, rfl, rfl, h, fun p' hp' => ?_⟩
      cases hp'; exact hl
    · have hb : bytes = packet p ++ bytes.drop (packet p).length := by
        have := congrArg (List.take (packet p).length) h
        rw [stream_cons, List.take_left' rfl, List.take_append_of_le_length (by rw [length_packet]; exact hl)] at this
        conv => rhs; lhs; rw [← this]
        exact (List.take_append_drop _ _).symm
      obtain ⟨ps₁, ps₂, rest, rfl, hr, hf⟩ := exists_front ps (bytes.drop (packet p).length) more (by
        rw [hb, stream_cons, List.append_assoc] at h
        exact List.append_cancel_left h)
      exact ⟨p :: ps₁, ps₂, rest, rfl, by rw [hb, hr, stream_cons, List.append_assoc], hf⟩

theorem cutLoop_brk {r r' : Reader} {buf tran : Nat} (h : cutTurn r buf tran = .ok (.brk r')) :
    cutLoop r buf tran = .ok (r', [], true) := by
  rw [cutLoop]
  split <;> rename_i e <;> rw [h] at e <;> cases e
  rfl

theorem cutLoop_fail {r r' : Reader} {buf tran : Nat} (h : cutTurn r buf tran = .ok (.fail r')) :
    cutLoop r buf tran = .ok (r', [], false) := by
  rw [cutLoop]
  split <;> rename_i e <;> rw [h] at e <;> cases e
  rfl

theorem cutLoop_deliver {r r' : Reader} {buf buf' tran tran' : Nat} {d : List UInt8}
    (h : cutTurn r buf tran = .ok (.deliver r' buf' tran' d)) :
    cutLoop r buf tran = (cutLoop r' buf' tran').map fun q => (q.1, d :: q.2.1, q.2.2) := by
  conv => lhs; rw [cutLoop]
  split <;> rename_i e <;> rw [h] at e <;> cases e
  cases cutLoop r' buf' tran' <;> rfl

/-- What a call leaves: `rest` in `msgbuffer`, in the block it had while that is short. -/
structure Left (size : Nat) (rest : List UInt8) (r : Reader) : Prop where
  readbuf : r.readbuf.length = M_SOCKET_READ_SIZE
  offset : r.msgbuffer.offset = 0
  data : r.msgbuffer.data = rest
  size : rest.length ≤ hdrlen → r.msgbuffer.size = size

theorem Left.length {size : Nat} {rest : List UInt8} {r : Reader} (h : Left size rest r) (hl : rest.length < 2 ^ 32) :
    r.msgbuffer.length = rest.length := by
  rw [Buffer.length_of_offset h.offset (by rw [h.data]; exact hl), h.data]

theorem Left.keep {size : Nat} {rest : List UInt8} {r : Reader} {mb : Buffer} (h : Left size [] r) (hsz : hdrlen ≤ size)
    (hd : mb.data = rest) (ho : mb.offset = r.msgbuffer.offset)
    (hs : rest.length ≤ r.msgbuffer.size → mb.size = r.msgbuffer.size) : Left size rest { r with msgbuffer := mb } := by
  have h0 := h.size (Nat.zero_le _)
  refine ⟨h.readbuf, ho.trans h.offset, hd, fun h8 => ?_⟩
  exact (hs (h0 ▸ h8.trans hsz)).trans h0

theorem Left.clear {size : Nat} {r : Reader} {readbuf : List UInt8} (h : Left size [] r) (hsz : size < 4 * 1024)
    (hl : readbuf.length = r.readbuf.length) : Left size [] ⟨readbuf, r.msgbuffer.clear⟩ := by
  refine ⟨hl.trans h.readbuf, rfl, rfl, fun _ => ?_⟩
  show (if 4 * 1024 ≤ r.msgbuffer.size then _ else r.msgbuffer.size) = size
  rw [h.size (Nat.zero_le _), if_neg (by omega)]

theorem cutFast_front {r : Reader} {buf : Nat} {rest more : List UInt8} {ps : List (List UInt8)}
    (hps : ∀ p ∈ ps, p.length ≤ M_SOCKET_PACK_SIZE) (hf : Front rest more ps)
    (hr : read r.readbuf buf rest.length = .ok rest) (hd : r.msgbuffer.data = []) :
    ∃ mb, cutFast r buf rest.length = .ok (.brk { r with msgbuffer := mb }) ∧ mb.data = rest ∧
      mb.offset = r.msgbuffer.offset ∧ (rest.length ≤ r.msgbuffer.size → mb.size = r.msgbuffer.size) := by
  rcases Nat.lt_or_ge rest.length hdrlen with h | h
  · exact cutFast_short h hr hd
  · cases ps with
    | nil =>
      have := congrArg List.length hf.eq
      simp only [List.length_append, stream_nil, List.length_nil] at this
      unfold hdrlen at h; omega
    | cons p ps => exact cutFast_part (hps p (by simp)) hr hf.eq h (hf.short p rfl) hd

/-- The fast path cuts whole packets off the read and keeps the front of the next one. -/
theorem cutLoop_fast (size : Nat) (hsz : hdrlen ≤ size ∧ size < 4 * 1024) (more : List UInt8)
    (ps₂ : List (List UInt8))
    (rest : List UInt8) (hf : Front rest more ps₂) (hps₂ : ∀ p ∈ ps₂, p.length ≤ M_SOCKET_PACK_SIZE) :
    ∀ (ps₁ : List (List UInt8)) (r : Reader) (buf : Nat), (∀ p ∈ ps₁, p.length ≤ M_SOCKET_PACK_SIZE) →
      Left size [] r → read r.readbuf buf (stream ps₁ ++ rest).length = .ok (stream ps₁ ++ rest) →
      ∃ r', cutLoop r buf (stream ps₁ ++ rest).length = .ok (r', ps₁, true) ∧ Left size rest r'
  | [], r, buf, _, hl, hr => by
    have h0 : r.msgbuffer.length = 0 := hl.length (by simp)
    obtain ⟨mb, hc, h1, h2, h3⟩ := cutFast_front hps₂ hf hr hl.data
    exact ⟨_, cutLoop_brk (by rw [cutTurn, if_pos h0]; exact hc), hl.keep hsz.1 h1 h2 h3⟩
  | p :: ps₁, r, buf, hps₁, hl, hr => by
    have h0 : r.msgbuffer.length = 0 := hl.length (by simp)
    rw [stream_cons, List.append_assoc] at hr ⊢
    obtain ⟨readbuf, hc, hlen, hr'⟩ := cutFast_whole (hps₁ p (by simp)) hr
    obtain ⟨r', he, hl''⟩ := cutLoop_fast size hsz more ps₂ rest hf hps₂ ps₁ _ _
      (fun q hq => hps₁ q (List.mem_cons_of_mem _ hq)) (hl.clear hsz.2 hlen) hr'
    refine ⟨r', ?_, hl''⟩
    rw [cutLoop_deliver (by rw [cutTurn, if_pos h0]; exact hc), he]
    rfl

/-! ## A call that finds the front of a packet kept -/

section
variable {size : Nat} (hsz : hdrlen ≤ size ∧ size < 4 * 1024) {r : Reader} {pend x : List UInt8}
variable (hl : Left size pend r) (hp8 : pend.length ≤ hdrlen) (hr : read r.readbuf 0 x.length = .ok x)
include hsz hl hp8 hr

theorem cutSlow_short (h : (pend ++ x).length < hdrlen) :
    ∃ r', cutSlow r 0 x.length = .ok (.brk r') ∧ Left size (pend ++ x) r' := by
  rw [List.length_append] at h
  have hlen : r.msgbuffer.length = pend.length := hl.length (by unfold hdrlen at hp8; omega)
  obtain ⟨mb, hk, h1, h2, h3⟩ := keep_of_read hr (by rw [hl.data]; unfold hdrlen at h; omega)
  rw [hl.data] at h1 h3
  refine ⟨{ r with msgbuffer := mb }, ?_, hl.readbuf, h2.trans hl.offset, h1, fun h8 => ?_⟩
  · rw [cutSlow, hlen, u32_of_lt (by unfold hdrlen at h; omega), if_pos h, hk]; rfl
  · have hs := hl.size (by omega)
    exact (h3 (by omega)).trans hs

theorem fillHeader_spec {a b : List UInt8} (he : x = a ++ b) (ha : (pend ++ a).length = hdrlen)
    (hx : x.length ≤ M_SOCKET_READ_SIZE) :
    ∃ mb, fillHeader r 0 x.length = .ok ({ r with msgbuffer := mb }, a.length, b.length) ∧
      mb.data = pend ++ a ∧ mb.offset = 0 ∧ mb.size = size := by
  subst he
  rw [List.length_append] at ha hx
  have hlen : r.msgbuffer.length = pend.length := hl.length (by unfold hdrlen at hp8; omega)
  have hs := hl.size hp8
  have hal : hdrlen - pend.length = a.length := by omega
  unfold fillHeader
  simp only [hlen]
  split
  · obtain ⟨mb, hk, h1, h2, h3⟩ := keep_of_read (r := r) (read_append_left hr) (by
      rw [hl.data]; unfold hdrlen at ha; omega)
    rw [hl.data] at h1 h3
    refine ⟨mb, ?_, h1, h2.trans hl.offset, (h3 (by omega)).trans hs⟩
    have hsub : sub32 (a ++ b).length a.length = b.length := by
      rw [sub32_of_le (by rw [List.length_append]; unfold M_SOCKET_READ_SIZE at hx; omega)
        (by rw [List.length_append]; omega), List.length_append]
      omega
    rw [hal, hk, hsub, Nat.zero_add]
    rfl
  · have ha0 : a = [] := List.eq_nil_of_length_eq_zero (by omega)
    subst ha0
    exact ⟨r.msgbuffer, by simp, by rw [hl.data, List.append_nil], hl.offset, hs⟩

theorem cutSlow_header {a b : List UInt8} (he : x = a ++ b) (ha : (pend ++ a).length = hdrlen)
    (hx : x.length ≤ M_SOCKET_READ_SIZE) :
    ∃ r₁ : Reader, cutSlow r 0 x.length = cutBody r₁ (ofBytes (pend ++ a)).n2h a.length b.length ∧
      r₁.readbuf = r.readbuf ∧ r₁.msgbuffer.data = (ofBytes (pend ++ a)).n2h.toBytes ∧ r₁.msgbuffer.offset = 0 ∧
      r₁.msgbuffer.size = size := by
  obtain ⟨mb, hf, h1, h2, h3⟩ := fillHeader_spec hsz hl hp8 hr he ha hx
  have hab : a.length + b.length = x.length := by rw [he, List.length_append]
  have hlen : r.msgbuffer.length = pend.length := hl.length (by unfold hdrlen at hp8; omega)
  have hrd : read (msgData { r with msgbuffer := mb }) 0 hdrlen = .ok (pend ++ a) := by
    unfold msgData
    simp only [h1, h2, List.drop_zero]
    rw [read_of_le (by rw [ha]; decide), List.drop_zero, List.take_of_length_le (Nat.le_of_eq ha)]
  refine ⟨setMsgHeader { r with msgbuffer := mb } (ofBytes (pend ++ a)).n2h, ?_, rfl, ?_, h2, h3⟩
  · rw [List.length_append] at ha
    rw [cutSlow, hlen, u32_of_lt (by unfold M_SOCKET_READ_SIZE at hx; unfold hdrlen at hp8; omega),
      if_neg (by omega), hf, Except.ok_bind, hrd, Except.ok_bind]
  · have hw : write (mb.data ++ []) 0 (ofBytes (pend ++ a)).n2h.toBytes = _ ++ [] := write_front (by
      rw [h1, ha, length_toBytes])
    rw [List.append_nil, List.append_nil] at hw
    show write mb.data mb.offset _ = _
    rw [h2]
    exact hw

theorem cutSlow_eq {p a b more more' : List UInt8} (hp : p.length ≤ M_SOCKET_PACK_SIZE) (he : x = a ++ b)
    (ha : (pend ++ a).length = hdrlen) (hx : x.length ≤ M_SOCKET_READ_SIZE)
    (hpk : pend ++ x ++ more = packet p ++ more') :
    ∃ r₁ : Reader, cutSlow r 0 x.length = cutBody r₁ (packetHeader p.length) a.length b.length ∧
      r₁.readbuf = r.readbuf ∧ r₁.msgbuffer.data = (packetHeader p.length).toBytes ∧ r₁.msgbuffer.offset = 0 ∧
      r₁.msgbuffer.size = size ∧ pend ++ a = (packetHeader p.length).h2n.toBytes := by
  obtain ⟨r₁, hs, h1, h2, h3, h4⟩ := cutSlow_header hsz hl hp8 hr he ha hx
  -- the bytes kept are the packet's header
  have ht : pend ++ a = (packet p ++ more').take hdrlen := by
    have := congrArg (List.take hdrlen) hpk
    rwa [he, ← List.append_assoc, List.append_assoc, List.take_left' ha] at this
  have hh : (ofBytes (pend ++ a)).n2h = packetHeader p.length := by rw [ht, ofBytes_packet hp]
  rw [hh] at hs h2
  exact ⟨r₁, hs, h1, h2, h3, h4, by rw [ht, ← toBytes_packet]⟩

end

theorem cutBody_part {size : Nat} {r : Reader} {p b : List UInt8} {buf : Nat} (hsz : hdrlen ≤ size)
    (hp : p.length ≤ M_SOCKET_PACK_SIZE) (hR : r.readbuf.length = M_SOCKET_READ_SIZE)
    (hd : r.msgbuffer.data = (packetHeader p.length).toBytes) (ho : r.msgbuffer.offset = 0)
    (hs : r.msgbuffer.size = size) (hb : read r.readbuf buf b.length = .ok b) (hlt : b.length < p.length) :
    ∃ r', cutBody r (packetHeader p.length) buf b.length = .ok (.brk r') ∧
      Left size ((packetHeader p.length).h2n.toBytes ++ b) r' := by
  have hl : r.msgbuffer.length = hdrlen := by
    rw [Buffer.length_of_offset ho (by rw [hd, length_toBytes]; decide), hd, length_toBytes]
  have hbp : b.length < 2 ^ 31 - hdrlen := by unfold M_SOCKET_PACK_SIZE at hp; unfold hdrlen; omega
  let r₁ := setMsgHeader r (packetHeader p.length).h2n
  have hd₁ : r₁.msgbuffer.data = (packetHeader p.length).h2n.toBytes := by
    have : write (r.msgbuffer.data ++ []) 0 (packetHeader p.length).h2n.toBytes = _ ++ [] := write_front (by
      rw [hd, length_toBytes, length_toBytes])
    rw [List.append_nil, List.append_nil] at this
    show write r.msgbuffer.data r.msgbuffer.offset _ = _
    rw [ho]; exact this
  obtain ⟨mb, hk, h1, h2, h3⟩ := keep_of_read (r := r₁) hb (by rw [hd₁, length_toBytes]; omega)
  rw [hd₁] at h1 h3
  refine ⟨{ r₁ with msgbuffer := mb }, ?_, hR, h2.trans ho, h1, fun h8 => ?_⟩
  · unfold cutBody
    simp only [hl]
    rw [sub32_of_le (by decide) (Nat.le_refl _), Nat.sub_self, Nat.add_zero, u32_of_lt (by omega),
      packetHeader_size, if_pos hlt, hk]
    rfl
  · rw [List.length_append, length_toBytes] at h8
    rw [length_toBytes] at h3
    exact (h3 (by show hdrlen + b.length ≤ r.msgbuffer.size; omega)).trans hs

/-- What the slow path hands over for `p`: as many bytes as `p` has, from its header on. -/
def slowView (p : List UInt8) : List UInt8 := ((packetHeader p.length).toBytes ++ p).take p.length

theorem cutBody_whole {size : Nat} {r : Reader} {p rest : List UInt8} {buf : Nat} (hsz : size < 4 * 1024)
    (hp : p.length ≤ M_SOCKET_PACK_SIZE) (hR : r.readbuf.length = M_SOCKET_READ_SIZE)
    (hd : r.msgbuffer.data = (packetHeader p.length).toBytes) (ho : r.msgbuffer.offset = 0)
    (hs : r.msgbuffer.size = size) (hb : read r.readbuf buf (p ++ rest).length = .ok (p ++ rest)) :
    (hdrlen + p.length ≤ size → ∃ r', cutBody r (packetHeader p.length) buf (p ++ rest).length =
        .ok (.deliver r' (buf + p.length) rest.length (slowView p)) ∧ r'.readbuf = r.readbuf ∧ Left size [] r') ∧
      (size < hdrlen + p.length →
        cutBody r (packetHeader p.length) buf (p ++ rest).length = .error .useAfterFree) := by
  have hl : r.msgbuffer.length = hdrlen := by
    rw [Buffer.length_of_offset ho (by rw [hd, length_toBytes]; decide), hd, length_toBytes]
  have hp32 : p.length < 2 ^ 31 - hdrlen := by unfold M_SOCKET_PACK_SIZE at hp; unfold hdrlen; omega
  have hbl := (read_eq_ok hb).1
  rw [List.length_append] at hbl
  have hpr : (p ++ rest).length < 2 ^ 32 := by
    rw [List.length_append]; unfold M_SOCKET_READ_SIZE at hR; omega
  obtain ⟨mb, hk, h1, h2, h3⟩ := keep_of_read (r := r) (read_append_left hb) (by rw [hd, length_toBytes]; omega)
  rw [hd] at h1 h3
  rw [length_toBytes] at h3
  have hc : cutBody r (packetHeader p.length) buf (p ++ rest).length =
      if r.msgbuffer.grows p.length then .error .useAfterFree
      else handOver { r with msgbuffer := mb } (buf + p.length) rest.length p.length
        (read (msgData { r with msgbuffer := mb }) 0 p.length) := by
    unfold cutBody
    simp only [hl]
    rw [sub32_of_le (by decide) (Nat.le_refl _), Nat.sub_self, Nat.add_zero, u32_of_lt hpr, packetHeader_size,
      if_neg (by rw [List.length_append]; omega)]
    simp only [packetHeader_timestamp, ne_eq, not_true_eq_false, if_false]
    rw [sub32_of_le (by omega) (Nat.zero_le _), Nat.sub_zero, hk, Except.ok_bind,
      sub32_of_le hpr (by rw [List.length_append]; omega), List.length_append, Nat.add_sub_cancel_left]
  rw [hc]
  constructor
  · intro hf
    have hg : r.msgbuffer.grows p.length = false :=
      Buffer.not_grows_of_fits (by rw [hd, length_toBytes, hs]; exact hf)
    have hrd : read (msgData { r with msgbuffer := mb }) 0 p.length = .ok (slowView p) := by
      unfold msgData
      simp only [h1, h2, ho, List.drop_zero]
      rw [read_of_le (by rw [List.length_append]; omega), List.drop_zero]; rfl
    refine ⟨⟨r.readbuf, mb.clear⟩, ?_, rfl, hR, rfl, rfl, fun _ => ?_⟩
    · rw [hg, if_neg Bool.false_ne_true, hrd, handOver, if_neg (Nat.not_lt.mpr hp)]; rfl
    show (if 4 * 1024 ≤ mb.size then _ else mb.size) = size
    rw [h3 (by omega), hs, if_neg (by omega)]
  · intro hf
    have hg : r.msgbuffer.grows p.length = true := by
      unfold Buffer.grows Buffer.pos
      rw [hd, length_toBytes, hs, u32_of_lt (by omega)]
      exact decide_eq_true hf
    rw [hg]; rfl

/-! ## A call on a read, from a state that has kept part of a header at most -/

theorem recv_left {size : Nat} {pend x : List UInt8} {r : Reader} (h : Left size pend r)
    (hx : x.length ≤ M_SOCKET_READ_SIZE) :
    Left size pend (r.recv x) ∧ read (r.recv x).readbuf 0 x.length = .ok x := by
  have hl : 0 + x.length ≤ r.readbuf.length := by rw [h.readbuf]; omega
  refine ⟨⟨(length_write hl).trans h.readbuf, h.offset, h.data, h.size⟩, ?_⟩
  exact read_write_front (by omega)

/-- The slow path hands over the payload itself, without moving `msgbuffer`. -/
def SlowOk (p : List UInt8) : Prop := hdrlen + p.length ≤ M_BUFFER_DEFAILT_SIZE ∧ slowView p = p

instance (p : List UInt8) : Decidable (SlowOk p) := inferInstanceAs (Decidable (_ ∧ _))

section
variable {r : Reader} {pend x rest more : List UInt8} {ps₁ ps₂ : List (List UInt8)}
variable (hl : Left M_BUFFER_DEFAILT_SIZE pend r) (hp8 : pend.length ≤ hdrlen) (hx : x.length ≤ M_SOCKET_READ_SIZE)
variable (hps₁ : ∀ p ∈ ps₁, p.length ≤ M_SOCKET_PACK_SIZE) (hps₂ : ∀ p ∈ ps₂, p.length ≤ M_SOCKET_PACK_SIZE)
variable (hpf : Front pend (x ++ more) (ps₁ ++ ps₂)) (he : pend ++ x = stream ps₁ ++ rest) (hf : Front rest more ps₂)
include hl hp8 hx hps₁ hps₂ hpf he hf

theorem cutMsgPack_part (hp0 : pend ≠ []) (h1 : ps₁ = []) :
    ∃ r', cutMsgPack (r.recv x) x.length = .ok (r', [], true) ∧ Left M_BUFFER_DEFAILT_SIZE rest r' := by
  subst h1
  obtain ⟨hl', hr⟩ := recv_left hl hx
  rw [stream_nil, List.nil_append] at he
  subst he
  have hne : (r.recv x).msgbuffer.length ≠ 0 := by
    rw [hl'.length (by unfold hdrlen at hp8; omega)]
    exact fun h => hp0 (List.eq_nil_of_length_eq_zero h)
  suffices h : ∃ r', cutSlow (r.recv x) 0 x.length = .ok (.brk r') ∧ Left M_BUFFER_DEFAILT_SIZE (pend ++ x) r' by
    obtain ⟨r', hc, hl''⟩ := h
    exact ⟨r', cutLoop_brk (by rw [cutTurn, if_neg hne]; exact hc), hl''⟩
  rcases Nat.lt_or_ge (pend ++ x).length hdrlen with hlt | hge
  · exact cutSlow_short (by decide) hl' hp8 hr hlt
  · cases ps₂ with
    | nil =>
      have := congrArg List.length hf.eq
      simp only [List.length_append, stream_nil, List.length_nil] at this hge
      unfold hdrlen at hge; omega
    | cons p ps =>
      have hp := hps₂ p (by simp)
      have hsh := hf.short p rfl
      rw [List.length_append] at hge hsh
      have hxs : x = x.take (hdrlen - pend.length) ++ x.drop (hdrlen - pend.length) :=
        (List.take_append_drop _ _).symm
      have ha : (pend ++ x.take (hdrlen - pend.length)).length = hdrlen := by
        rw [List.length_append, List.length_take]; omega
      have hal : (x.take (hdrlen - pend.length)).length = hdrlen - pend.length := by rw [List.length_take]; omega
      obtain ⟨r₁, hc, g1, g2, g3, g4, g5⟩ := cutSlow_eq (by decide) hl' hp8 hr hp hxs ha hx hf.eq
      have hb : read (r.recv x).readbuf (0 + _) _ = .ok _ := read_append_right (a := x.take (hdrlen - pend.length))
        (b := x.drop (hdrlen - pend.length)) (by rwa [← hxs])
      rw [Nat.zero_add, ← g1] at hb
      obtain ⟨r', hc', hl''⟩ := cutBody_part (by decide) hp (by rw [g1]; exact hl'.readbuf) g2 g3 g4 hb (by
        rw [List.length_drop]; omega)
      refine ⟨r', hc.trans hc', ?_⟩
      rw [← g5, List.append_assoc, List.take_append_drop] at hl''
      exact hl''

theorem cutMsgPack_whole {p : List UInt8} {ps : List (List UInt8)} (hp0 : pend ≠ []) (h1 : ps₁ = p :: ps) :
    (hdrlen + p.length ≤ M_BUFFER_DEFAILT_SIZE →
      ∃ r', cutMsgPack (r.recv x) x.length = .ok (r', slowView p :: ps, true) ∧ Left M_BUFFER_DEFAILT_SIZE rest r') ∧
    (M_BUFFER_DEFAILT_SIZE < hdrlen + p.length → ∃ f, cutMsgPack (r.recv x) x.length = .error f) := by
  subst h1
  have hp := hps₁ p (by simp)
  obtain ⟨hl', hr⟩ := recv_left hl hx
  have hne : (r.recv x).msgbuffer.length ≠ 0 := by
    rw [hl'.length (by unfold hdrlen at hp8; omega)]
    exact fun h => hp0 (List.eq_nil_of_length_eq_zero h)
  have hsh := hpf.short p rfl
  rw [stream_cons, packet, List.append_assoc, List.append_assoc] at he
  have hhl : (packetHeader p.length).h2n.toBytes.length = hdrlen := length_toBytes _
  have hxl : pend.length + x.length = hdrlen + (p.length + (stream ps ++ rest).length) := by
    have := congrArg List.length he
    rwa [List.length_append, List.length_append, List.length_append, hhl] at this
  let a := x.take (hdrlen - pend.length)
  have hxs : x = a ++ x.drop (hdrlen - pend.length) := (List.take_append_drop _ _).symm
  have ha : (pend ++ a).length = hdrlen := by rw [List.length_append, List.length_take]; omega
  have hxd : x.drop (hdrlen - pend.length) = p ++ (stream ps ++ rest) := by
    have := congrArg (List.drop hdrlen) he
    rw [List.drop_left' hhl, List.drop_append, List.drop_eq_nil_of_le hp8, List.nil_append] at this
    exact this
  obtain ⟨r₁, hc, g1, g2, g3, g4, -⟩ := cutSlow_eq (by decide) hl' hp8 hr hp hxs ha hx (by
    show pend ++ x ++ [] = packet p ++ (stream ps ++ rest)
    rw [List.append_nil, he, packet, List.append_assoc])
  rw [hxd] at hc hxs
  have hb : read (r.recv x).readbuf (0 + _) _ = .ok _ :=
    read_append_right (a := a) (b := p ++ (stream ps ++ rest)) (by rwa [← hxs])
  rw [Nat.zero_add, ← g1] at hb
  obtain ⟨hfit, hbig⟩ := cutBody_whole (by decide) hp (by rw [g1]; exact hl'.readbuf) g2 g3 g4 hb
  constructor
  · intro h
    obtain ⟨r₂, hc₂, hrb, hl₂⟩ := hfit h
    have hrest : read r₂.readbuf (a.length + p.length) (stream ps ++ rest).length = .ok (stream ps ++ rest) := by
      rw [hrb]; exact read_append_right hb
    obtain ⟨r', hlp, hl''⟩ := cutLoop_fast _ (by decide) more ps₂ rest hf hps₂ ps r₂ _
      (fun q hq => hps₁ q (List.mem_cons_of_mem _ hq)) hl₂ hrest
    refine ⟨r', ?_, hl''⟩
    rw [cutMsgPack, cutLoop_deliver (by rw [cutTurn, if_neg hne]; exact hc.trans hc₂), hlp]
    rfl
  · intro h
    refine ⟨.useAfterFree, ?_⟩
    rw [cutMsgPack, cutLoop]
    split <;> rename_i e <;> rw [cutTurn, if_neg hne, hc, hbig h] at e <;> cases e
    rfl

end

end GlobalServer
