import GlobalServer.Lib.Runs
import GlobalServer.Netio.TcpStreamSound

/-!
# What a peer can make `_CutMsgPack` keep

A header is checked when its payload is there, and not before. So a header
that is refused in the end is kept like any other until then, and whatever it
announces is waited for. `scan` is what should happen to the bytes since the
last packet; a call does that as long as no payload is kept from one read to
the next.
-/

namespace GlobalServer

open Bytes PacketHeader

/-- The header at the front of some bytes, as the receiver reads it. -/
def headerOf (l : List UInt8) : PacketHeader := (ofBytes (l.take hdrlen)).n2h

/-- The magic code is right and the size allowed. -/
def Valid (h : PacketHeader) : Prop := h.timestamp = M_PACGET_CODE ∧ h.size ≤ M_SOCKET_PACK_SIZE

instance (h : PacketHeader) : Decidable (Valid h) := inferInstanceAs (Decidable (_ ∧ _))

/-- What the bytes since the last packet come to. -/
structure Scan where
  payloads : List (List UInt8)
  /-- the bytes behind the last packet -/
  rest : List UInt8
  /-- a header that is not valid is complete -/
  bad : Bool
  deriving DecidableEq

/-- The packets at the front of `l`, up to the first header that is not valid. -/
def scan (l : List UInt8) : Scan :=
  if l.length < hdrlen then { payloads := [], rest := l, bad := false }
  else if ¬ Valid (headerOf l) then { payloads := [], rest := l, bad := true }
  else if l.length - hdrlen < (headerOf l).size then { payloads := [], rest := l, bad := false }
  else
    let s := scan (l.drop (hdrlen + (headerOf l).size))
    { s with payloads := (l.drop hdrlen).take (headerOf l).size :: s.payloads }
termination_by l.length
decreasing_by
  rw [List.length_drop]
  unfold hdrlen at *
  omega

/-- One connection: its reader and the bytes it has got since the last packet. -/
structure Receiving where
  reader : Reader
  pend : List UInt8

namespace Receiving

def init : Receiving := { reader := Reader.init, pend := [] }

/-- The read `x` is handled, and reading goes on. -/
def Step (s : Receiving) (x : List UInt8) (s' : Receiving) : Prop :=
  s'.pend = (scan (s.pend ++ x)).rest ∧
    ∃ ds, cutMsgPack (s.reader.recv x) x.length = .ok (s'.reader, ds, true)

/-- No more is kept than a packet, and a header that is complete and not valid ends the connection in this call:
nothing is delivered from it on, and nothing kept from behind it. -/
structure ReadOk (s : Receiving) (x : List UInt8) (r : Reader) (ds : List (List UInt8)) (ret : Bool) : Prop where
  held : r.msgbuffer.length ≤ hdrlen + M_SOCKET_PACK_SIZE
  bad : (scan (s.pend ++ x)).bad = true →
    ret = false ∧ ds.length = (scan (s.pend ++ x)).payloads.length ∧ r.msgbuffer.length ≤ hdrlen

/-- The call on the read `x` returns, and is as `ReadOk` says. -/
def Bounded (s : Receiving) (x : List UInt8) : Prop :=
  ∃ r ds ret, cutMsgPack (s.reader.recv x) x.length = .ok (r, ds, ret) ∧ s.ReadOk x r ds ret

/-- What a read must be like: no payload has been kept before it; the packet that was begun fits the block in which
it is put together, if the read completes it; and of a packet whose header is not valid the payload is there too. -/
structure Meets (s : Receiving) (x : List UInt8) : Prop where
  size : x.length ≤ M_SOCKET_READ_SIZE
  pend : s.pend.length ≤ hdrlen
  fits : s.pend ≠ [] → hdrlen + (headerOf (s.pend ++ x)).size ≤ (s.pend ++ x).length →
    Valid (headerOf (s.pend ++ x)) → hdrlen + (headerOf (s.pend ++ x)).size ≤ M_BUFFER_DEFAILT_SIZE
  bad : (scan (s.pend ++ x)).bad = true →
    hdrlen + (headerOf (scan (s.pend ++ x)).rest).size ≤ (scan (s.pend ++ x)).rest.length

def Run : List (List UInt8) → Receiving → Prop := Runs.Run Step (fun _ s x => s.Meets x) init

end Receiving

/-! ## The bytes of a packet -/

theorem toBytes_headerOf {l : List UInt8} (h : hdrlen ≤ l.length) : (headerOf l).h2n.toBytes = l.take hdrlen :=
  toBytes_h2n_n2h (List.length_take_of_le h)

theorem Valid.eq_packetHeader {h : PacketHeader} (hv : Valid h) : h = packetHeader h.size := by
  obtain ⟨timestamp, size⟩ := h
  obtain ⟨ht, -⟩ := hv
  simp only at ht
  rw [ht]
  rfl

theorem eq_packet_append {l : List UInt8} (h : hdrlen ≤ l.length) (hv : Valid (headerOf l))
    (hc : hdrlen + (headerOf l).size ≤ l.length) :
    l = packet ((l.drop hdrlen).take (headerOf l).size) ++ l.drop (hdrlen + (headerOf l).size) := by
  have hl : ((l.drop hdrlen).take (headerOf l).size).length = (headerOf l).size := by
    rw [List.length_take, List.length_drop]
    omega
  rw [packet, hl, ← hv.eq_packetHeader, toBytes_headerOf h, List.append_assoc, ← List.drop_drop,
    List.take_append_drop, List.take_append_drop]

/-! ## The fast path -/

theorem cutFast_bad {r : Reader} {buf : Nat} {chunk : List UInt8} (hr : read r.readbuf buf chunk.length = .ok chunk)
    (h : hdrlen ≤ chunk.length) (hb : ¬ Valid (headerOf chunk)) (hc : hdrlen + (headerOf chunk).size ≤ chunk.length) :
    ∃ r', cutFast r buf chunk.length = .ok (.fail r') ∧ r'.msgbuffer = r.msgbuffer := by
  rw [cutFast, if_neg (by omega), read_take hr h, Except.ok_bind]
  show ∃ r', (if chunk.length - hdrlen < (headerOf chunk).size then _ else
    if (headerOf chunk).timestamp ≠ M_PACGET_CODE then _ else _) = _ ∧ _
  rw [if_neg (by omega)]
  by_cases ht : (headerOf chunk).timestamp = M_PACGET_CODE
  · have hs : M_SOCKET_PACK_SIZE < (headerOf chunk).size := by
      by_contra hs
      exact hb ⟨ht, Nat.not_lt.mp hs⟩
    rw [if_neg (by simpa using ht)]
    exact ⟨_, if_pos hs, rfl⟩
  · rw [if_pos ht]
    exact ⟨_, rfl, rfl⟩

/-! ## `scan`, one packet at a time -/

theorem scan_short {l : List UInt8} (h : l.length < hdrlen) : scan l = { payloads := [], rest := l, bad := false } := by
  rw [scan, if_pos h]

theorem scan_bad {l : List UInt8} (h : hdrlen ≤ l.length) (hb : ¬ Valid (headerOf l)) :
    scan l = { payloads := [], rest := l, bad := true } := by
  rw [scan, if_neg (Nat.not_lt.mpr h), if_pos hb]

theorem scan_wait {l : List UInt8} (h : hdrlen ≤ l.length) (hv : Valid (headerOf l))
    (hlt : l.length < hdrlen + (headerOf l).size) : scan l = { payloads := [], rest := l, bad := false } := by
  rw [scan, if_neg (Nat.not_lt.mpr h), if_neg (not_not_intro hv), if_pos (by omega)]

theorem scan_whole {l : List UInt8} (hv : Valid (headerOf l)) (hc : hdrlen + (headerOf l).size ≤ l.length) :
    scan l = { scan (l.drop (hdrlen + (headerOf l).size)) with
      payloads := (l.drop hdrlen).take (headerOf l).size :: (scan (l.drop (hdrlen + (headerOf l).size))).payloads } := by
  conv => lhs; rw [scan]
  rw [if_neg (by omega), if_neg (not_not_intro hv), if_neg (by omega)]

theorem length_scan_rest (l : List UInt8) (h : (scan l).bad = false) :
    (scan l).rest.length ≤ hdrlen + M_SOCKET_PACK_SIZE := by
  fun_induction scan l with
  | case1 l hlt => exact Nat.le_add_right_of_le (Nat.le_of_lt hlt)
  | case2 => cases h
  | case3 l _ hv hlt =>
    have hs := (not_not.mp hv).2
    show l.length ≤ _
    omega
  | case4 l _ _ _ s ih => exact ih h

theorem cutLoop_scan (l : List UInt8) : ∀ (r : Reader) (buf : Nat), Left M_BUFFER_DEFAILT_SIZE [] r → l.length < 2 ^ 31 →
    read r.readbuf buf l.length = .ok l →
    ((scan l).bad = true → hdrlen + (headerOf (scan l).rest).size ≤ (scan l).rest.length) →
    ∃ r', cutLoop r buf l.length = .ok (r', (scan l).payloads, !(scan l).bad) ∧
      ((scan l).bad = false → Left M_BUFFER_DEFAILT_SIZE (scan l).rest r') ∧
      ((scan l).bad = true → r'.msgbuffer.length = 0) := by
  fun_induction scan l with
  | case1 l hlt =>
    intro r buf hl _ hr _
    have h0 : r.msgbuffer.length = 0 := hl.length (by simp)
    obtain ⟨mb, hc, h1, h2, h3⟩ := cutFast_short hlt hr hl.data
    exact ⟨_, cutLoop_brk (by rw [cutTurn, if_pos h0]; exact hc), fun _ => hl.keep (by decide) h1 h2 h3,
      fun h => by cases h⟩
  | case2 l hlt hb =>
    intro r buf hl _ hr hbad
    have h0 : r.msgbuffer.length = 0 := hl.length (by simp)
    obtain ⟨r', hc, hm⟩ := cutFast_bad hr (Nat.not_lt.mp hlt) hb (hbad rfl)
    refine ⟨r', cutLoop_fail (by rw [cutTurn, if_pos h0]; exact hc), fun h => (by cases h), fun _ => ?_⟩
    rw [hm, h0]
  | case3 l hlt hv hw =>
    intro r buf hl hlen hr _
    have h0 : r.msgbuffer.length = 0 := hl.length (by simp)
    obtain ⟨mb, hc, h1, h2, h3⟩ := cutFast_wait hr (Nat.not_lt.mp hlt) hw hlen hl.data
    exact ⟨_, cutLoop_brk (by rw [cutTurn, if_pos h0]; exact hc), fun _ => hl.keep (by decide) h1 h2 h3,
      fun h => by cases h⟩
  | case4 l hlt hv hw s ih =>
    intro r buf hl hlen hr hbad
    have h0 : r.msgbuffer.length = 0 := hl.length (by simp)
    have hv := not_not.mp hv
    have hd : ((l.drop hdrlen).take (headerOf l).size).length = (headerOf l).size := by
      rw [List.length_take, List.length_drop]
      omega
    have hl₁ := eq_packet_append (Nat.not_lt.mp hlt) hv (by omega)
    -- `l` is this packet, and the rest of it
    obtain ⟨readbuf, hc, hlen', hr'⟩ := cutFast_whole (r := r) (by rw [hd]; exact hv.2) (by rwa [← hl₁])
    rw [← hl₁] at hc
    obtain ⟨r', hc', hrest⟩ := ih _ _ (hl.clear (by decide) hlen') (by rw [List.length_drop]; omega) hr' hbad
    refine ⟨r', ?_, hrest⟩
    rw [cutLoop_deliver (by rw [cutTurn, if_pos h0]; exact hc), hc']
    rfl

/-! ## The slow path, with a header kept at most -/

section
variable {r : Reader} {pend x : List UInt8} (hl : Left M_BUFFER_DEFAILT_SIZE pend r) (hp8 : pend.length ≤ hdrlen)
variable (hr : read r.readbuf 0 x.length = .ok x) (hx : x.length ≤ M_SOCKET_READ_SIZE)
variable (h : hdrlen ≤ (pend ++ x).length)
include hl hp8 hr hx h

theorem cutSlow_headerOf : ∃ (r₁ : Reader) (buf : Nat) (b : List UInt8),
    cutSlow r 0 x.length = cutBody r₁ (headerOf (pend ++ x)) buf b.length ∧ b = (pend ++ x).drop hdrlen ∧
      r₁.readbuf = r.readbuf ∧ read r₁.readbuf buf b.length = .ok b ∧
      r₁.msgbuffer.data = (headerOf (pend ++ x)).toBytes ∧ r₁.msgbuffer.offset = 0 ∧
      r₁.msgbuffer.size = M_BUFFER_DEFAILT_SIZE := by
  rw [List.length_append] at h
  obtain ⟨a, b, rfl, ha⟩ : ∃ a b, x = a ++ b ∧ (pend ++ a).length = hdrlen := by
    refine ⟨x.take (hdrlen - pend.length), x.drop (hdrlen - pend.length), (List.take_append_drop _ _).symm, ?_⟩
    rw [List.length_append, List.length_take]
    omega
  obtain ⟨r₁, hs, hR, hd, ho, hsz⟩ := cutSlow_header (by decide) hl hp8 hr rfl ha hx
  have hh : headerOf (pend ++ (a ++ b)) = (ofBytes (pend ++ a)).n2h := by
    unfold headerOf
    rw [← List.append_assoc, List.take_left' ha]
  have hb : read r.readbuf (0 + a.length) b.length = .ok b := read_append_right hr
  rw [Nat.zero_add] at hb
  rw [hh]
  exact ⟨r₁, a.length, b, hs, by rw [← List.append_assoc, List.drop_left' ha], hR, hR ▸ hb, hd, ho, hsz⟩

theorem cutSlow_bad (hb : ¬ Valid (headerOf (pend ++ x)))
    (hc : hdrlen + (headerOf (pend ++ x)).size ≤ (pend ++ x).length) :
    ∃ r', cutSlow r 0 x.length = .ok (.fail r') ∧ r'.msgbuffer.length = hdrlen := by
  obtain ⟨r₁, buf, b, hs, rfl, -, -, hd, ho, -⟩ := cutSlow_headerOf hl hp8 hr hx h
  have hlen : r₁.msgbuffer.length = hdrlen := by
    rw [Buffer.length_of_offset ho (by rw [hd, length_toBytes]; decide), hd, length_toBytes]
  have hpx : (pend ++ x).length ≤ hdrlen + M_SOCKET_READ_SIZE := by
    rw [List.length_append]
    exact Nat.add_le_add hp8 hx
  -- what fits one read is not too long for a packet
  have ht : (headerOf (pend ++ x)).timestamp ≠ M_PACGET_CODE := by
    intro ht
    refine hb ⟨ht, ?_⟩
    have : M_SOCKET_READ_SIZE ≤ M_SOCKET_PACK_SIZE := by decide
    omega
  refine ⟨r₁, ?_, hlen⟩
  rw [hs]
  unfold cutBody
  simp only [hlen, List.length_drop]
  rw [sub32_of_le (by decide) (Nat.le_refl _), Nat.sub_self, Nat.add_zero, u32_of_lt (by
    unfold hdrlen M_SOCKET_READ_SIZE at *; omega), if_neg (by omega), if_pos ht]

theorem cutSlow_wait (hv : Valid (headerOf (pend ++ x)))
    (hlt : (pend ++ x).length < hdrlen + (headerOf (pend ++ x)).size) :
    ∃ r', cutSlow r 0 x.length = .ok (.brk r') ∧ Left M_BUFFER_DEFAILT_SIZE (pend ++ x) r' := by
  obtain ⟨r₁, buf, b, hs, rfl, hR, hb, hd, ho, hsz⟩ := cutSlow_headerOf hl hp8 hr hx h
  -- a payload of the size that is announced
  have hp : (List.replicate (headerOf (pend ++ x)).size (0 : UInt8)).length = (headerOf (pend ++ x)).size :=
    List.length_replicate
  have hph : headerOf (pend ++ x) = packetHeader (List.replicate (headerOf (pend ++ x)).size (0 : UInt8)).length := by
    rw [hp]
    exact hv.eq_packetHeader
  obtain ⟨r', hc, hl'⟩ := cutBody_part (r := r₁) (by decide) (by rw [hp]; exact hv.2) (hR ▸ hl.readbuf)
    (by rw [← hph]; exact hd) ho hsz hb (by rw [hp, List.length_drop]; omega)
  refine ⟨r', by rw [hs, ← hc, ← hph], ?_⟩
  rw [← hph, toBytes_headerOf h, List.take_append_drop] at hl'
  exact hl'

theorem cutSlow_whole (hv : Valid (headerOf (pend ++ x)))
    (hc : hdrlen + (headerOf (pend ++ x)).size ≤ (pend ++ x).length)
    (hfit : hdrlen + (headerOf (pend ++ x)).size ≤ M_BUFFER_DEFAILT_SIZE) :
    ∃ r' buf d,
      cutSlow r 0 x.length = .ok (.deliver r' buf ((pend ++ x).drop (hdrlen + (headerOf (pend ++ x)).size)).length d) ∧
      Left M_BUFFER_DEFAILT_SIZE [] r' ∧
      read r'.readbuf buf ((pend ++ x).drop (hdrlen + (headerOf (pend ++ x)).size)).length =
        .ok ((pend ++ x).drop (hdrlen + (headerOf (pend ++ x)).size)) := by
  obtain ⟨r₁, buf, b, hs, hbe, hR, hb, hd, ho, hsz⟩ := cutSlow_headerOf hl hp8 hr hx h
  obtain ⟨p, rest, hpr, hp⟩ : ∃ p rest, b = p ++ rest ∧ p.length = (headerOf (pend ++ x)).size := by
    refine ⟨b.take (headerOf (pend ++ x)).size, b.drop (headerOf (pend ++ x)).size, (List.take_append_drop _ _).symm, ?_⟩
    rw [hbe, List.length_take, List.length_drop]
    omega
  have hph : headerOf (pend ++ x) = packetHeader p.length := by
    rw [hp]
    exact hv.eq_packetHeader
  have hrest : (pend ++ x).drop (hdrlen + (headerOf (pend ++ x)).size) = rest := by
    rw [← List.drop_drop, ← hbe, hpr, ← hp, List.drop_left]
  rw [hpr] at hb hs
  obtain ⟨r', hc', hrb, hl'⟩ := (cutBody_whole (r := r₁) (by decide) (by rw [hp]; exact hv.2) (hR ▸ hl.readbuf)
    (by rw [← hph]; exact hd) ho hsz hb).1 (by rw [hp]; exact hfit)
  rw [hrest]
  refine ⟨r', buf + p.length, slowView p, by rw [hs, ← hc', ← hph], hl', ?_⟩
  rw [hrb]
  exact read_append_right hb

end

/-- A call on a read that meets the condition: it returns whether the bytes are still good, hands over as many
payloads as there are packets, and keeps the front of the next one. -/
theorem Receiving.Meets.cut {s : Receiving} {x : List UInt8} (hm : s.Meets x)
    (hk : Left M_BUFFER_DEFAILT_SIZE s.pend s.reader) :
    ∃ r ds, cutMsgPack (s.reader.recv x) x.length = .ok (r, ds, !(scan (s.pend ++ x)).bad) ∧
      ds.length = (scan (s.pend ++ x)).payloads.length ∧
      ((scan (s.pend ++ x)).bad = false → Left M_BUFFER_DEFAILT_SIZE (scan (s.pend ++ x)).rest r) ∧
      ((scan (s.pend ++ x)).bad = true → r.msgbuffer.length ≤ hdrlen) := by
  obtain ⟨hl, hr⟩ := recv_left hk hm.size
  have hx31 : x.length < 2 ^ 31 := Nat.lt_of_le_of_lt hm.size (by decide)
  by_cases h0 : s.pend = []
  · have hbad := hm.bad
    rw [h0, List.nil_append] at hbad ⊢
    rw [h0] at hl
    obtain ⟨r', hc, hrest, he⟩ := cutLoop_scan x _ 0 hl hx31 hr hbad
    exact ⟨r', _, hc, rfl, hrest, fun hb => by rw [he hb]; exact Nat.zero_le _⟩
  have hne : (s.reader.recv x).msgbuffer.length ≠ 0 := by
    rw [hl.length (Nat.lt_of_le_of_lt hm.pend (by decide))]
    exact fun h => h0 (List.eq_nil_of_length_eq_zero h)
  have hturn : cutTurn (s.reader.recv x) 0 x.length = cutSlow (s.reader.recv x) 0 x.length := by
    rw [cutTurn, if_neg hne]
  rcases Nat.lt_or_ge (s.pend ++ x).length hdrlen with hlt | h
  · obtain ⟨r', hc, hl'⟩ := cutSlow_short (by decide) hl hm.pend hr hlt
    rw [scan_short hlt]
    exact ⟨r', [], cutLoop_brk (hturn.trans hc), rfl, fun _ => hl', fun hb => by cases hb⟩
  by_cases hv : Valid (headerOf (s.pend ++ x))
  · rcases Nat.lt_or_ge (s.pend ++ x).length (hdrlen + (headerOf (s.pend ++ x)).size) with hlt | hge
    · obtain ⟨r', hc, hl'⟩ := cutSlow_wait hl hm.pend hr hm.size h hv hlt
      rw [scan_wait h hv hlt]
      exact ⟨r', [], cutLoop_brk (hturn.trans hc), rfl, fun _ => hl', fun hb => by cases hb⟩
    · -- the packet that was begun, then the others of the read
      obtain ⟨r₁, buf, d, hc, hl₁, hr₁⟩ := cutSlow_whole hl hm.pend hr hm.size h hv hge (hm.fits h0 hge hv)
      have hbad := hm.bad
      rw [scan_whole hv hge] at hbad ⊢
      obtain ⟨r', hc', hrest, he⟩ := cutLoop_scan _ r₁ buf hl₁ (by
        rw [List.length_drop, List.length_append]
        have := hm.pend
        unfold hdrlen at *
        omega) hr₁ hbad
      refine ⟨r', d :: (scan ((s.pend ++ x).drop (hdrlen + (headerOf (s.pend ++ x)).size))).payloads, ?_, rfl, hrest, ?_⟩
      · rw [cutMsgPack, cutLoop_deliver (hturn.trans hc), hc']
        rfl
      · exact fun hb => by rw [he hb]; exact Nat.zero_le _
  · have hbad := hm.bad
    rw [scan_bad h hv] at hbad ⊢
    obtain ⟨r', hc, hlen⟩ := cutSlow_bad hl hm.pend hr hm.size h hv (hbad rfl)
    exact ⟨r', [], cutLoop_fail (hturn.trans hc), rfl, fun hb => (by cases hb), fun _ => Nat.le_of_eq hlen⟩

namespace Receiving

theorem Meets.bounded {s : Receiving} {x : List UInt8} (hm : s.Meets x)
    (hk : Left M_BUFFER_DEFAILT_SIZE s.pend s.reader) : s.Bounded x := by
  obtain ⟨r, ds, hc, hd, hrest, hbad⟩ := hm.cut hk
  refine ⟨r, ds, _, hc, ?_, fun hb => ⟨by rw [hb]; rfl, hd, hbad hb⟩⟩
  cases hb : (scan (s.pend ++ x)).bad with
  | true => exact (hbad hb).trans (Nat.le_add_right _ _)
  | false =>
    have hle := length_scan_rest _ hb
    rw [(hrest hb).length (Nat.lt_of_le_of_lt hle (by decide))]
    exact hle

/-- `pend` is what is kept, and less than a packet. -/
structure Sound (s : Receiving) : Prop where
  left : Left M_BUFFER_DEFAILT_SIZE s.pend s.reader
  length : s.pend.length ≤ hdrlen + M_SOCKET_PACK_SIZE

theorem sound_init : init.Sound :=
  ⟨⟨List.length_replicate, rfl, rfl, fun _ => rfl⟩, Nat.zero_le _⟩

theorem Sound.step {s : Receiving} {x : List UInt8} (h : s.Sound) (hm : s.Meets x)
    (hb : (scan (s.pend ++ x)).bad = false) : ∃ s', s.Step x s' ∧ s'.Sound ∧ s'.pend = (scan (s.pend ++ x)).rest := by
  obtain ⟨r, ds, hc, -, hrest, -⟩ := hm.cut h.left
  rw [hb] at hc
  exact ⟨⟨r, _⟩, ⟨rfl, ds, hc⟩, ⟨hrest hb, length_scan_rest _ hb⟩, rfl⟩

theorem Sound.of_step {s s' : Receiving} {x : List UInt8} (h : s.Sound) (hm : s.Meets x) (hst : s.Step x s') : s'.Sound := by
  obtain ⟨hp, ds, hc⟩ := hst
  obtain ⟨r, ds', hc', -, hrest, -⟩ := hm.cut h.left
  rw [hc] at hc'
  simp only [Except.ok.injEq, Prod.mk.injEq] at hc'
  obtain ⟨rfl, -, hb⟩ := hc'
  have hb : (scan (s.pend ++ x)).bad = false := by simpa using hb
  refine ⟨?_, ?_⟩
  · rw [hp]
    exact hrest hb
  · rw [hp]
    exact length_scan_rest _ hb

theorem Run.sound {t : List (List UInt8)} {s : Receiving} (h : Run t s) : s.Sound :=
  Runs.Run.invariant (fun _ s => s.Sound) sound_init (fun _ _ _ _ _ hs hm hst => hs.of_step hm hst) h

theorem receive_bound {t : List (List UInt8)} {s : Receiving} (h : Run t s) :
    s.reader.msgbuffer.length ≤ hdrlen + M_SOCKET_PACK_SIZE ∧ ∀ x, s.Meets x → s.Bounded x := by
  have hs := h.sound
  refine ⟨?_, fun x hm => hm.bounded hs.left⟩
  rw [hs.left.length (Nat.lt_of_le_of_lt hs.length (by decide))]
  exact hs.length

/-- A header in two reads, with a wrong magic code and no payload. -/
theorem receive_bound_split : ∃ s, Run [[0]] s ∧ s.Bounded (List.replicate 7 0) := by
  have hm : init.Meets [0] := ⟨by decide, by decide, fun h => absurd rfl h, fun h => by
    rw [scan_short (by decide)] at h
    cases h⟩
  obtain ⟨s, hst, hs, hp⟩ := sound_init.step hm (by rw [scan_short (by decide)])
  rw [scan_short (by decide)] at hp
  have hrun : Run [[0]] s := .snoc .nil hm hst
  refine ⟨s, hrun, (receive_bound hrun).2 _ ?_⟩
  have hv : ¬ Valid (headerOf (s.pend ++ List.replicate 7 0)) := by
    rw [hp]
    decide
  have hl : (s.pend ++ List.replicate 7 0).length = hdrlen := by
    rw [hp]
    rfl
  refine ⟨by decide, by rw [hp]; decide, fun _ _ h => absurd h hv, fun _ => ?_⟩
  rw [scan_bad (Nat.le_of_eq hl.symm) hv, hl, hp]
  decide

/-- With nothing kept, a header that is not valid is kept when its payload is not all there. -/
theorem Sound.not_bounded {s : Receiving} {x : List UInt8} (hs : s.Sound) (h0 : s.pend = [])
    (hx : x.length ≤ M_SOCKET_READ_SIZE) (hb : ¬ Valid (headerOf x)) (h : hdrlen ≤ x.length)
    (hlt : x.length < hdrlen + (headerOf x).size) : ¬ s.Bounded x := by
  obtain ⟨hl, hr⟩ := recv_left hs.left hx
  rw [h0] at hl
  have hz : (s.reader.recv x).msgbuffer.length = 0 := hl.length (by simp)
  have hlt' : x.length - hdrlen < (headerOf x).size := by omega
  obtain ⟨mb, hc, -⟩ := cutFast_wait hr h hlt' (Nat.lt_of_le_of_lt hx (by decide)) hl.data
  have hcut := cutLoop_brk (by rw [cutTurn, if_pos hz]; exact hc)
  intro hbd
  obtain ⟨r, ds, ret, he, hok⟩ := hbd
  have hret := (hok.bad (by rw [h0, List.nil_append, scan_bad h hb])).1
  rw [cutMsgPack, hcut, hret] at he
  simp only [Except.ok.injEq, Prod.mk.injEq] at he
  cases he.2.2

/-- The first read is a header with a wrong magic code that announces a payload of one byte. -/
theorem bounded_not : ¬ init.Bounded [0, 0, 0, 0, 0, 0, 0, 1] :=
  sound_init.not_bounded rfl (by decide) (by decide) (by decide) (by decide)

end Receiving

end GlobalServer
