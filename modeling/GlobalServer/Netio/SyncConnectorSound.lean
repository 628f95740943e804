import GlobalServer.Lib.Chunks
import GlobalServer.Netio.SyncConnector

/-!
# What `Recv` makes of the reads

Between two reads the connector is in a `Phase`: part of a header kept, or a
header and part of its body. `feed` is what `_CutMsgPack` does to the phase
with the bytes of one read, and `scan` what the loop of `Recv` does with the
reads to come. The bytes behind a packet are where `scan` and the stream part:
the connector looks for them at the front of the read.
-/

namespace GlobalServer

open Bytes PacketHeader

namespace SyncConnector

/-! ## One read -/

inductive Phase where
  /-- so much of a header has come -/
  | header (kept : List UInt8)
  /-- the header announced `size` bytes, and these have come -/
  | body (size : Nat) (kept : List UInt8)

/-- What a read comes to. -/
inductive Fed where
  /-- no packet yet -/
  | more (φ : Phase)
  /-- a packet that ends `m` bytes into the read -/
  | got (p : List UInt8) (m : Nat)

/-- The size that the header at the front of `l` announces. -/
def announced (l : List UInt8) : Nat := (ofBytes (l.take hdrlen)).n2h.size

theorem announced_lt (l : List UInt8) : announced l < 2 ^ 32 := (wf_n2h _).2

/-- The body's part of a read, `off` bytes into it. -/
def feedBody (size : Nat) (kept : List UInt8) (off : Nat) (y : List UInt8) : Fed :=
  if kept.length + y.length < size then .more (.body size (kept ++ y))
  else .got (kept ++ y.take (size - kept.length)) (off + (size - kept.length))

def feed : Phase → List UInt8 → Fed
  | .header kept, y =>
    if kept.length + y.length < hdrlen then .more (.header (kept ++ y))
    -- what the read holds behind such a header is dropped
    else if maxLen < announced (kept ++ y) then .more (.body (announced (kept ++ y)) [])
    else feedBody (announced (kept ++ y)) [] (hdrlen - kept.length) (y.drop (hdrlen - kept.length))
  | .body size kept, y => feedBody size kept 0 y

/-- So much goes into a `Buffer` before its size wraps. -/
def room : Nat := 2 ^ 32 - M_BUFFER_DEFAILT_SIZE

/-- The connector has put `kept` into `_rcvbuffer`, from `offset` on, for a body of `size` bytes. -/
structure Kept (s : SyncConnector) (size : Nat) (kept : List UInt8) (offset : Nat) : Prop where
  sane : s.rcvbuffer.Sane
  size : s.curheader.size = size
  rest : s.rcvbuffer.rest = kept
  offset : s.rcvbuffer.offset = offset

theorem Kept.length {s : SyncConnector} {size offset : Nat} {kept : List UInt8} (h : Kept s size kept offset) :
    s.rcvbuffer.length = kept.length := by rw [h.sane.length, h.rest]

def Phase.Holds (s : SyncConnector) : Phase → Prop
  | .header kept => Kept s 0 kept 0 ∧ kept.length < hdrlen
  | .body size kept => Kept s size kept hdrlen ∧ kept.length < size ∧ size < 2 ^ 32

/-- The connector after `_CutMsgPack` on `n` bytes, which has returned `got`. -/
def Fed.Holds (n : Nat) (s : SyncConnector) (got : Bool) : Fed → Prop
  | .more φ => got = false ∧ φ.Holds s
  | .got p m => got = true ∧ s.rcvbuffer.rest = p ∧ s.readsize = n - m ∧ s.curheader.size = 0

theorem keep_spec {s : SyncConnector} {size offset buf : Nat} {kept y : List UInt8} (h : Kept s size kept offset)
    (hr : read s.readbuf buf y.length = .ok y) (hl : offset + kept.length + y.length < room) :
    ∃ rb, s.keep buf y.length = .ok { s with rcvbuffer := rb } ∧
      Kept { s with rcvbuffer := rb } size (kept ++ y) offset := by
  have hd := h.sane.length_data
  rw [h.rest, h.offset] at hd
  obtain ⟨rb, hw⟩ := Buffer.write_of_le s.rcvbuffer y (by rw [hd]; exact hl)
  obtain ⟨h1, h2, h3⟩ := h.sane.write hw
  refine ⟨rb, ?_, h1, h.size, ?_, h3.trans h.offset⟩
  · rw [keep, hr, Except.ok_bind, hw, Except.ok_bind]
  · rw [h2, h.rest]

section
variable {s : SyncConnector} {size buf : Nat} {kept y : List UInt8}
variable (h : Kept s size kept hdrlen) (hk : kept.length ≤ size) (hs : size < 2 ^ 32)
variable (hy : s.readsize = y.length) (hr : read s.readbuf buf y.length = .ok y) (hyl : y.length < 2 ^ 31)
variable (hroom : size ≤ maxLen ∨ hdrlen + kept.length + y.length < room)
include h hk hs hy hr hyl hroom

omit hk hyl in
theorem cutBody_part (hlt : kept.length + y.length < size) :
    ∃ s', s.cutBody buf = .ok (s', false) ∧ s'.readbuf = s.readbuf ∧ s'.started = s.started ∧
      Kept s' size (kept ++ y) hdrlen := by
  have hu : u32 (y.length + kept.length) = y.length + kept.length := u32_of_lt (by omega)
  obtain ⟨rb, hkeep, h'⟩ := keep_spec h hr (by
    unfold room maxLen hdrlen M_BUFFER_DEFAILT_SIZE at *; omega)
  refine ⟨{ s with rcvbuffer := rb }, ?_, rfl, rfl, h'⟩
  unfold cutBody
  simp only [h.length, h.size, hy, hu]
  rw [if_pos (by omega), hkeep, Except.ok_bind, hy]

theorem cutBody_whole (hle : size ≤ kept.length + y.length) :
    ∃ s', s.cutBody buf = .ok (s', true) ∧ s'.readbuf = s.readbuf ∧ s'.started = s.started ∧
      s'.rcvbuffer.rest = kept ++ y.take (size - kept.length) ∧ s'.readsize = y.length - (size - kept.length) ∧
      s'.curheader.size = 0 := by
  have hu : u32 (y.length + kept.length) = y.length + kept.length :=
    u32_of_lt (by unfold room maxLen hdrlen M_BUFFER_DEFAILT_SIZE at *; omega)
  have ht : (y.take (size - kept.length)).length = size - kept.length := List.length_take_of_le (by omega)
  have hr' : read s.readbuf buf (y.take (size - kept.length)).length = .ok (y.take (size - kept.length)) :=
    read_append_left (b := y.drop (size - kept.length)) (by rw [List.take_append_drop]; exact hr)
  obtain ⟨rb, hkeep, h'⟩ := keep_spec h hr' (by
    rw [ht]; unfold room maxLen hdrlen M_BUFFER_DEFAILT_SIZE at *; omega)
  refine ⟨{ s with rcvbuffer := rb, readsize := sub32 s.readsize (size - kept.length),
                   curheader := { s.curheader with size := 0 } }, ?_, rfl, rfl, h'.rest, ?_, rfl⟩
  · unfold cutBody
    simp only [h.length, h.size, hy, hu]
    rw [if_neg (by omega), sub32_of_le hs hk, ← ht, hkeep, Except.ok_bind, hy]
  · show sub32 s.readsize _ = _
    rw [hy, sub32_of_le (by omega) (by omega)]

theorem cutBody_feed {off n : Nat} (hn : n = off + y.length) :
    ∃ s' got, s.cutBody buf = .ok (s', got) ∧ s'.readbuf = s.readbuf ∧ s'.started = s.started ∧
      (feedBody size kept off y).Holds n s' got := by
  unfold feedBody
  split
  · rename_i hlt
    obtain ⟨s', h1, h2, h3, h4⟩ := cutBody_part h hs hy hr hroom hlt
    exact ⟨s', false, h1, h2, h3, rfl, h4, by rw [List.length_append]; exact hlt, hs⟩
  · rename_i hlt
    obtain ⟨s', h1, h2, h3, h4, h5, h6⟩ := cutBody_whole h hk hs hy hr hyl hroom (Nat.not_lt.mp hlt)
    exact ⟨s', true, h1, h2, h3, rfl, h4, by rw [h5]; omega, h6⟩

end

theorem readHeader_spec {s : SyncConnector} {size : Nat} {l : List UInt8} (h : Kept s size l 0)
    (hl : l.length = hdrlen) :
    ∃ rb, s.readHeader = { s with rcvbuffer := rb, curheader := ofBytes l } ∧
      Kept s.readHeader (ofBytes l).size [] hdrlen := by
  obtain ⟨rb, h1, h2, h3, h4⟩ := h.sane.read (n := hdrlen) (by rw [h.rest, hl])
  rw [h.rest, List.take_of_length_le (Nat.le_of_eq hl)] at h1
  rw [h.rest, List.drop_eq_nil_of_le (Nat.le_of_eq hl)] at h3
  rw [h.offset, Nat.zero_add] at h4
  have he : s.readHeader = { s with rcvbuffer := rb, curheader := ofBytes l } := by unfold readHeader; rw [h1]
  refine ⟨rb, he, ?_⟩
  rw [he]
  exact ⟨h2, rfl, h3, h4⟩

/-- What room there must be for a read in this phase. -/
def Phase.Fits (y : List UInt8) : Phase → Prop
  | .header _ => True
  | .body size kept => size ≤ maxLen ∨ hdrlen + kept.length + y.length < room

/-- The header's part of `_CutMsgPack`: `a` is what the read adds to it and `b` what follows. -/
theorem cutChecked_feed {s : SyncConnector} {buf n : Nat} {l b : List UInt8} (h : Kept s 0 l 0)
    (hl : l.length = hdrlen)
    (hy : s.readsize = b.length) (hr : read s.readbuf buf b.length = .ok b) (hbl : b.length < 2 ^ 31)
    (hn : n = buf + b.length) :
    ∃ s' got, s.readHeader.cutChecked buf = .ok (s', got) ∧ s'.readbuf = s.readbuf ∧ s'.started = s.started ∧
      (if maxLen < announced l then Fed.more (.body (announced l) [])
        else feedBody (announced l) [] buf b).Holds n s' got := by
  have ha : announced l = (ofBytes l).n2h.size := by rw [announced, List.take_of_length_le (Nat.le_of_eq hl)]
  obtain ⟨rb, he, hk⟩ := readHeader_spec h hl
  have hz : s.readHeader.curheader.n2h.size = announced l := by rw [ha, he]
  have hk' : Kept { s.readHeader with curheader := s.readHeader.curheader.n2h } (announced l) [] hdrlen :=
    ⟨hk.sane, hz, hk.rest, hk.offset⟩
  have hc : s.readHeader.cutChecked buf = if maxLen < announced l
      then .ok ({ s.readHeader with curheader := s.readHeader.curheader.n2h }, false)
      else cutBody { s.readHeader with curheader := s.readHeader.curheader.n2h } buf := by
    unfold cutChecked
    simp only [hz]
  rw [hc]
  split
  · rename_i hbig
    refine ⟨_, false, rfl, by rw [he], by rw [he], rfl, hk', ?_, announced_lt l⟩
    exact Nat.lt_of_le_of_lt (Nat.zero_le _) hbig
  · rename_i hfit
    obtain ⟨s', got, h1, h2, h3, h4⟩ := cutBody_feed hk' (Nat.zero_le _) (announced_lt l) (by rw [he]; exact hy)
      (by rw [he]; exact hr) hbl (.inl (Nat.not_lt.mp hfit)) hn
    exact ⟨s', got, h1, by rw [h2, he], by rw [h3, he], h4⟩

/-- `_CutMsgPack` does to the phase what `feed` does. -/
theorem cutMsgPack_feed {s : SyncConnector} {φ : Phase} {y : List UInt8} {o : Fed} (ho : feed φ y = o) (h : φ.Holds s)
    (hf : φ.Fits y) (hy : s.readsize = y.length) (hr : read s.readbuf 0 y.length = .ok y) (hyl : y.length < 2 ^ 31) :
    ∃ s' got, s.cutMsgPack = .ok (s', got) ∧ s'.readbuf = s.readbuf ∧ s'.started = s.started ∧
      o.Holds y.length s' got := by
  subst ho
  cases φ with
  | body size kept =>
    obtain ⟨hk, hlt, hs⟩ := h
    have hc : s.cutMsgPack = s.cutBody 0 := by
      unfold cutMsgPack
      simp only [hk.size]
      exact if_neg (by omega)
    rw [hc]
    exact cutBody_feed hk (Nat.le_of_lt hlt) hs hy hr hyl hf (Nat.zero_add _).symm
  | header kept =>
    obtain ⟨hk, hlt⟩ := h
    have hu : u32 (y.length + kept.length) = y.length + kept.length :=
      u32_of_lt (by unfold hdrlen at hlt; omega)
    unfold cutMsgPack feed
    simp only [hk.size, hk.length, hy, hu, if_true]
    rcases Nat.lt_or_ge (kept.length + y.length) hdrlen with h8 | h8
    · obtain ⟨rb, hkeep, h'⟩ := keep_spec hk hr (by unfold room M_BUFFER_DEFAILT_SIZE hdrlen at *; omega)
      rw [if_pos (by omega), if_pos h8, hkeep, Except.ok_bind]
      refine ⟨{ s with rcvbuffer := rb }, false, rfl, rfl, rfl, rfl, h', ?_⟩
      rw [List.length_append]
      exact h8
    · -- the read completes the header
      have hyc : y.take (hdrlen - kept.length) ++ y.drop (hdrlen - kept.length) = y := List.take_append_drop _ _
      have ht : (y.take (hdrlen - kept.length)).length = hdrlen - kept.length := List.length_take_of_le (by omega)
      have hd : (y.drop (hdrlen - kept.length)).length = y.length - (hdrlen - kept.length) := List.length_drop
      have hrt := read_append_left (a := y.take (hdrlen - kept.length)) (b := y.drop (hdrlen - kept.length)) (by
        rw [hyc]; exact hr)
      have hrd := read_append_right (a := y.take (hdrlen - kept.length)) (b := y.drop (hdrlen - kept.length)) (by
        rw [hyc]; exact hr)
      rw [ht, Nat.zero_add] at hrd
      obtain ⟨rb, hkeep, h'⟩ := keep_spec hk hrt (by
        rw [ht]; unfold room M_BUFFER_DEFAILT_SIZE hdrlen at *; omega)
      rw [ht] at hkeep
      have hl8 : (kept ++ y.take (hdrlen - kept.length)).length = hdrlen := by
        rw [List.length_append, ht]; omega
      have ha : announced (kept ++ y) = announced (kept ++ y.take (hdrlen - kept.length)) := by
        rw [announced, announced, List.take_of_length_le (Nat.le_of_eq hl8), List.take_append,
          List.take_of_length_le (Nat.le_of_lt hlt)]
      have hs : sub32 y.length (hdrlen - kept.length) = y.length - (hdrlen - kept.length) :=
        sub32_of_le (by omega) (by omega)
      rw [if_neg (by omega), if_neg (by omega), if_neg (by omega), hkeep, Except.ok_bind, ha]
      simp only [hy, hs]
      exact cutChecked_feed (s := { s with rcvbuffer := rb, readsize := y.length - (hdrlen - kept.length) })
        ⟨h'.sane, h'.size, h'.rest, h'.offset⟩ hl8 hd.symm hrd (by omega) (by omega)

/-! ## The reads to come -/

/-- The packet that `Recv` comes to and the reads as it sees them then. -/
def scan : Phase → List (List UInt8) → Option (List UInt8 × List (List UInt8))
  | _, [] => none
  | φ, y :: ys =>
    match feed φ y with
    | .more φ' => scan φ' ys
    -- as many bytes are left as lie behind the packet, but those at the front
    | .got p m => some (p, y.take (y.length - m) :: ys)

/-- The reads as the connector sees them `m` bytes on. -/
def reread : List (List UInt8) → Nat → List (List UInt8)
  | [], _ => [[]]
  | y :: ys, m => if m ≤ y.length then y.take (y.length - m) :: ys else reread ys (m - y.length)

theorem reread_of_lt {y : List UInt8} {ys : List (List UInt8)} {m : Nat} (h : y.length < m) :
    reread (y :: ys) m = reread ys (m - y.length) := if_neg (Nat.not_le.mpr h)

theorem reread_of_le {y : List UInt8} {ys : List (List UInt8)} {m : Nat} (h : m ≤ y.length) :
    reread (y :: ys) m = y.take (y.length - m) :: ys := if_pos h

theorem scan_body (ys : List (List UInt8)) : ∀ (size : Nat) (kept : List UInt8), kept.length < size →
    scan (.body size kept) ys = if kept.length + ys.flatten.length < size then none
      else some (kept ++ ys.flatten.take (size - kept.length), reread ys (size - kept.length)) := by
  induction ys with
  | nil =>
    intro size kept h
    rw [List.flatten_nil, List.length_nil, Nat.add_zero, if_pos h, scan]
  | cons y ys ih =>
    intro size kept h
    unfold scan
    rw [feed, feedBody, List.flatten_cons, List.length_append]
    rcases Nat.lt_or_ge (kept.length + y.length) size with hlt | hge
    · simp only [if_pos hlt]
      have hs : size - (kept ++ y).length = size - kept.length - y.length := by rw [List.length_append]; omega
      have hy : y.take (size - kept.length) = y := List.take_of_length_le (by omega)
      rw [ih size (kept ++ y) (by rw [List.length_append]; exact hlt), hs, List.length_append, List.take_append, hy,
        reread_of_lt (by omega), Nat.add_assoc, List.append_assoc]
    · rw [if_neg (Nat.not_lt.mpr hge), if_neg (by omega), List.take_append_of_le_length (by omega),
        reread_of_le (by omega), Nat.zero_add]

/-- What `scan` comes to once a header that announces too much is complete. -/
def scanOver (size : Nat) (ys : List (List UInt8)) : Option (List UInt8 × List (List UInt8)) :=
  if ys.flatten.length < size then none else some (ys.flatten.take size, reread ys size)

theorem scan_header (ys : List (List UInt8)) : ∀ kept : List UInt8, kept.length < hdrlen →
    scan (.header kept) ys =
      if kept.length + ys.flatten.length < hdrlen then none
      else if maxLen < announced (kept ++ ys.flatten) then
        scanOver (announced (kept ++ ys.flatten)) (reread ys (hdrlen - kept.length)).tail
      else if kept.length + ys.flatten.length < hdrlen + announced (kept ++ ys.flatten) then none
      else some (((kept ++ ys.flatten).drop hdrlen).take (announced (kept ++ ys.flatten)),
        reread ys (hdrlen + announced (kept ++ ys.flatten) - kept.length)) := by
  induction ys with
  | nil =>
    intro kept h
    rw [List.flatten_nil, List.length_nil, Nat.add_zero, if_pos h, scan]
  | cons y ys ih =>
    intro kept h
    unfold scan
    rw [feed, List.flatten_cons, List.length_append]
    rcases Nat.lt_or_ge (kept.length + y.length) hdrlen with hlt | hge
    · simp only [if_pos hlt]
      rw [ih (kept ++ y) (by rw [List.length_append]; exact hlt), List.length_append, List.append_assoc,
        reread_of_lt (by omega), reread_of_lt (by omega), Nat.add_assoc, Nat.sub_add_eq, Nat.sub_add_eq]
    · have ha : announced (kept ++ (y ++ ys.flatten)) = announced (kept ++ y) := by
        rw [announced, announced, ← List.append_assoc, List.take_append_of_le_length (by
          rw [List.length_append]; exact hge)]
      have hd : (kept ++ (y ++ ys.flatten)).drop hdrlen = y.drop (hdrlen - kept.length) ++ ys.flatten := by
        rw [List.drop_append, List.drop_eq_nil_of_le (Nat.le_of_lt h), List.nil_append,
          List.drop_append_of_le_length (by omega)]
      have hl : (y.drop (hdrlen - kept.length)).length = y.length - (hdrlen - kept.length) := List.length_drop
      have h8 : ¬ kept.length + (y.length + ys.flatten.length) < hdrlen := by omega
      rw [if_neg (Nat.not_lt.mpr hge), if_neg h8, ha, hd]
      generalize announced (kept ++ y) = size
      rcases Nat.lt_or_ge maxLen size with hbig | hfit
      · rw [if_pos hbig, if_pos hbig, reread_of_le (by omega), List.tail_cons, scanOver]
        show scan (.body size []) ys = _
        rw [scan_body ys size [] (Nat.lt_of_le_of_lt (Nat.zero_le _) hbig)]
        simp only [List.length_nil, Nat.zero_add, List.nil_append, Nat.sub_zero]
      · rw [if_neg (Nat.not_lt.mpr hfit), if_neg (Nat.not_lt.mpr hfit), feedBody, List.length_nil, Nat.zero_add, hl]
        rcases Nat.lt_or_ge (y.length - (hdrlen - kept.length)) size with hlt | hge'
        · rw [if_pos hlt, List.nil_append]
          show scan (.body size (y.drop _)) ys = _
          have hc : y.length - (hdrlen - kept.length) + ys.flatten.length < size ↔
              kept.length + (y.length + ys.flatten.length) < hdrlen + size := by omega
          have hs : size - (y.length - (hdrlen - kept.length)) = hdrlen + size - kept.length - y.length := by omega
          have ht : (y.drop (hdrlen - kept.length)).take size = y.drop (hdrlen - kept.length) :=
            List.take_of_length_le (by rw [hl]; exact Nat.le_of_lt hlt)
          rw [scan_body ys size _ (by rw [hl]; exact hlt), hl]
          simp only [hc]
          rw [List.take_append, ht, hl, hs, reread_of_lt (by omega)]
        · have hs : y.length - (hdrlen - kept.length + size) = y.length - (hdrlen + size - kept.length) := by omega
          rw [if_neg (Nat.not_lt.mpr hge'), if_neg (by omega), List.take_append_of_le_length (by rw [hl]; exact hge'),
            reread_of_le (by omega), List.nil_append, Nat.sub_zero, ← hs]

/-! ## Recv -/

theorem lt_of_read {y : List UInt8} (h : y.length ≤ M_SOCKET_READ_SIZE) : y.length < 2 ^ 31 :=
  Nat.lt_of_le_of_lt h (by decide)

/-- What room there must be for the reads to come. -/
def Phase.Room (ys : List (List UInt8)) : Phase → Prop
  | .header kept => hdrlen ≤ kept.length + ys.flatten.length → maxLen < announced (kept ++ ys.flatten) →
      hdrlen + (reread ys (hdrlen - kept.length)).tail.flatten.length < room
  | .body size kept => size ≤ maxLen ∨ hdrlen + kept.length + ys.flatten.length < room

theorem Phase.Room.fits {φ : Phase} {y : List UInt8} {ys : List (List UInt8)} (h : φ.Room (y :: ys)) : φ.Fits y := by
  cases φ with
  | header kept => trivial
  | body size kept =>
    rcases h with h | h
    · exact .inl h
    · rw [List.flatten_cons, List.length_append] at h
      exact .inr (by omega)

theorem feedBody_room {size off : Nat} {kept y : List UInt8} {ys : List (List UInt8)} {φ : Phase}
    (h : size ≤ maxLen ∨ hdrlen + kept.length + y.length + ys.flatten.length < room)
    (hf : feedBody size kept off y = .more φ) : φ.Room ys := by
  unfold feedBody at hf
  split at hf
  · cases hf
    show _ ∨ _
    rw [List.length_append, ← Nat.add_assoc]
    exact h
  · cases hf

theorem Phase.Room.feed {φ φ' : Phase} {y : List UInt8} {ys : List (List UInt8)} (h : φ.Room (y :: ys))
    (hf : feed φ y = .more φ') : φ'.Room ys := by
  cases φ with
  | body size kept =>
    refine feedBody_room ?_ hf
    simp only [Phase.Room] at h
    rwa [List.flatten_cons, List.length_append, ← Nat.add_assoc] at h
  | header kept =>
    simp only [Phase.Room] at h
    rw [List.flatten_cons, List.length_append, ← List.append_assoc, ← Nat.add_assoc] at h
    simp only [SyncConnector.feed] at hf
    split at hf
    · rename_i hlt
      cases hf
      simp only [Phase.Room]
      rwa [reread_of_lt (by omega), Nat.sub_sub, ← List.length_append] at h
    · rename_i hge
      have ha : announced (kept ++ y ++ ys.flatten) = announced (kept ++ y) := by
        rw [announced, announced, List.take_append_of_le_length (by rw [List.length_append]; omega)]
      rw [reread_of_le (by omega), ha, List.tail_cons] at h
      split at hf
      · rename_i hbig
        cases hf
        exact .inr (h (by omega) hbig)
      · rename_i hfit
        exact feedBody_room (.inl (Nat.not_lt.mp hfit)) hf

/-- The connector between two packets; `v` is `reads` behind what it takes for the rest of the last one. -/
structure Between (s : SyncConnector) (reads v : List (List UInt8)) : Prop where
  started : s.started = true
  header : s.curheader.size = 0
  readbuf : s.readbuf.length = M_SOCKET_READ_SIZE
  front : ∃ front, v = front :: reads ∧ s.readsize = front.length ∧ read s.readbuf 0 front.length = .ok front
  later : ∀ y ∈ reads, y ≠ [] ∧ y.length ≤ M_SOCKET_READ_SIZE

/-- The connector, the reads left and the result, for what `scan` has come to. -/
def Ends (s : SyncConnector) (reads : List (List UInt8)) (got : Bool) : Option (List UInt8 × List (List UInt8)) → Prop
  | none => got = false ∧ s.started = false
  | some (p, v) => got = true ∧ s.rcvbuffer.rest = p ∧ Between s reads v

section
variable {s s' : SyncConnector} {φ : Phase} {y : List UInt8} {ys : List (List UInt8)} {got : Bool}

theorem ends_got {p : List UInt8} {m : Nat} (hs : s'.started = true) (hb : s'.readbuf.length = M_SOCKET_READ_SIZE)
    (hr : read s'.readbuf 0 y.length = .ok y) (hys : ∀ x ∈ ys, x ≠ [] ∧ x.length ≤ M_SOCKET_READ_SIZE)
    (h : (Fed.got p m).Holds y.length s' got) : Ends s' ys got (some (p, y.take (y.length - m) :: ys)) := by
  obtain ⟨hg, hp, hn, hz⟩ := h
  have hl : (y.take (y.length - m)).length = y.length - m := List.length_take_of_le (Nat.sub_le _ _)
  refine ⟨hg, hp, hs, hz, hb, ⟨_, rfl, hn.trans hl.symm, ?_⟩, hys⟩
  exact read_append_left (b := y.drop (y.length - m)) (by rw [List.take_append_drop]; exact hr)

theorem recvLoop_scan (hφ : φ.Holds s) (hroom : φ.Room ys) (hs : s.started = true)
    (hb : s.readbuf.length = M_SOCKET_READ_SIZE) (hys : ∀ x ∈ ys, x ≠ [] ∧ x.length ≤ M_SOCKET_READ_SIZE) :
    ∃ s' reads got, s.recvLoop ys = .ok (s', reads, got) ∧ Ends s' reads got (scan φ ys) := by
  induction ys generalizing s φ with
  | nil => exact ⟨_, [], false, rfl, rfl, rfl⟩
  | cons y ys ih =>
    obtain ⟨hne, hyl⟩ := hys y (by simp)
    have hys' : ∀ x ∈ ys, x ≠ [] ∧ x.length ≤ M_SOCKET_READ_SIZE := fun x hx => hys x (List.mem_cons_of_mem y hx)
    have hφ' : φ.Holds (s.recvSome y) := by
      cases φ with
      | header kept => exact ⟨⟨hφ.1.sane, hφ.1.size, hφ.1.rest, hφ.1.offset⟩, hφ.2⟩
      | body size kept => exact ⟨⟨hφ.1.sane, hφ.1.size, hφ.1.rest, hφ.1.offset⟩, hφ.2⟩
    have hb' : (s.recvSome y).readbuf.length = M_SOCKET_READ_SIZE := by
      show (write s.readbuf 0 y).length = _
      rw [length_write (by omega), hb]
    have hr : read (s.recvSome y).readbuf 0 y.length = .ok y := read_write_front (by omega)
    obtain ⟨s₁, got, h1, h2, h3, h4⟩ := cutMsgPack_feed rfl hφ' hroom.fits rfl hr (lt_of_read hyl)
    have hs₁ : s₁.started = true := h3.trans hs
    have hb₁ : s₁.readbuf.length = M_SOCKET_READ_SIZE := by rw [h2, hb']
    rw [recvLoop, if_neg hne, h1, scan]
    cases hf : feed φ y with
    | more φ' =>
      rw [hf] at h4
      obtain ⟨rfl, h4⟩ := h4
      exact ih h4 (hroom.feed hf) hs₁ hb₁ hys'
    | got p m =>
      rw [hf] at h4
      obtain rfl := h4.1
      exact ⟨s₁, ys, true, rfl, ends_got hs₁ hb₁ (by rw [h2]; exact hr) hys' h4⟩

end

theorem recvPacket_scan {s : SyncConnector} {reads v : List (List UInt8)} (h : Between s reads v)
    (hroom : Phase.Room v (.header [])) :
    ∃ s' reads' got, s.recvPacket reads = .ok (s', reads', got) ∧ Ends s' reads' got (scan (.header []) v) := by
  obtain ⟨y, rfl, hn, hr⟩ := h.front
  have hyl : y.length ≤ M_SOCKET_READ_SIZE := by
    have := (read_eq_ok hr).1
    rw [h.readbuf] at this
    omega
  have hφ : (Phase.header []).Holds { s with rcvbuffer := s.rcvbuffer.clear } :=
    ⟨⟨Buffer.sane_clear _, h.header, Buffer.rest_clear _, Buffer.clear_offset _⟩, by decide⟩
  unfold recvPacket scan
  rcases Nat.eq_zero_or_pos y.length with h0 | hpos
  · obtain rfl := List.eq_nil_of_length_eq_zero h0
    have hf : feed (.header []) [] = .more (.header []) := rfl
    rw [if_neg (by rw [hn]; exact Nat.lt_irrefl 0), hf]
    exact recvLoop_scan hφ (hroom.feed hf) h.started h.readbuf h.later
  · obtain ⟨s₁, got, h1, h2, h3, h4⟩ := cutMsgPack_feed rfl hφ hroom.fits hn hr (lt_of_read hyl)
    have hs₁ : s₁.started = true := h3.trans h.started
    have hb₁ : s₁.readbuf.length = M_SOCKET_READ_SIZE := by rw [h2]; exact h.readbuf
    simp only [h1]
    rw [if_pos (by rw [hn]; exact hpos)]
    cases hf : feed (.header []) y with
    | more φ' =>
      rw [hf] at h4
      obtain ⟨rfl, h4⟩ := h4
      exact recvLoop_scan h4 (hroom.feed hf) hs₁ hb₁ h.later
    | got p m =>
      rw [hf] at h4
      obtain rfl := h4.1
      exact ⟨s₁, reads, true, rfl, ends_got hs₁ hb₁ (by rw [h2]; exact hr) h.later h4⟩

theorem recv_scan {s : SyncConnector} {reads v : List (List UInt8)} (h : Between s reads v)
    (hroom : Phase.Room v (.header [])) :
    (scan (.header []) v = none → ∃ s' reads', s.recv reads = .ok (s', reads', none) ∧ s'.started = false) ∧
      ∀ p v', scan (.header []) v = some (p, v') →
        ∃ s' reads', s.recv reads = .ok (s', reads', some p) ∧ Between s' reads' v' := by
  obtain ⟨s', reads', got, h1, h2⟩ := recvPacket_scan h hroom
  have hr : s.recv reads = .ok (s', reads', if got then some s'.rcvbuffer.rest else none) := by
    unfold recv
    rw [if_neg (by rw [h.started]; simp), h1]
    rfl
  constructor
  · intro hn
    rw [hn] at h2
    obtain ⟨rfl, hs⟩ := h2
    exact ⟨s', reads', hr, hs⟩
  · intro p v' hp
    rw [hp] at h2
    obtain ⟨rfl, rfl, hb⟩ := h2
    exact ⟨s', reads', hr, hb⟩

theorem recvs_closed {s : SyncConnector} (hs : s.started = false) (reads : List (List UInt8)) (n : Nat) :
    recvs n s reads = .ok (List.replicate n none) := by
  induction n with
  | zero => rfl
  | succ n ih =>
    have hr : s.recv reads = .ok (s, reads, none) := by
      unfold recv
      rw [if_pos (by rw [hs]; simp)]
    rw [recvs, hr, Except.ok_bind]
    show (recvs n s reads >>= _) = _
    rw [ih, Except.ok_bind, List.replicate_succ]

end SyncConnector

end GlobalServer
