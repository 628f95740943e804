import GlobalServer.Netio.TcpStreamSound

/-!
# Which reads `_CutMsgPack` gets right

Every byte of a read ends up in a payload handed over or in `msgbuffer`, and
the bytes of a payload that were kept across a call are counted twice. So a
connection that goes on delivering what was sent has never kept any of a
payload, and the converse is the run of calls that `TcpStreamSound` follows.
-/

namespace GlobalServer

open Bytes PacketHeader

/-! ## Counting the bytes -/

/-- What holds of the reader between calls whatever was received. -/
structure Sane (r : Reader) : Prop where
  readbuf : r.readbuf.length = M_SOCKET_READ_SIZE
  offset : r.msgbuffer.offset = 0
  data : r.msgbuffer.data.length ≤ 2 * M_SOCKET_READ_SIZE + hdrlen

theorem Sane.length {r : Reader} (h : Sane r) : r.msgbuffer.length = r.msgbuffer.data.length :=
  Buffer.length_of_offset h.offset (by have := h.data; unfold M_SOCKET_READ_SIZE hdrlen at this; omega)

/-- What the bytes in `msgbuffer` will count for: those after the header twice. -/
def weight (d : List UInt8) : Nat := d.length + (d.length - hdrlen)

@[simp] theorem weight_nil : weight [] = 0 := rfl

theorem le_weight (d : List UInt8) : d.length ≤ weight d := Nat.le_add_right _ _

/-- A turn accounts for `w` bytes. -/
def Cut.Counts (w : Nat) : Cut → Prop
  | .brk r => Sane r ∧ w ≤ r.msgbuffer.data.length
  | .fail _ => True
  | .deliver r _ tran d => Sane r ∧ r.msgbuffer.data = [] ∧ w ≤ hdrlen + d.length + tran

theorem length_keep {r r' : Reader} {buf len : Nat} (h : keep r buf len = .ok r') :
    r'.readbuf = r.readbuf ∧ r'.msgbuffer.offset = r.msgbuffer.offset ∧
      r'.msgbuffer.data.length = r.msgbuffer.data.length + len ∧ buf + len ≤ r.readbuf.length := by
  obtain ⟨h1, h2, h3, h4⟩ := keep_eq_ok h
  refine ⟨h2, h4, ?_, h1⟩
  rw [h3, List.length_append, List.length_take, List.length_drop]; omega

theorem length_setMsgHeader {r : Reader} (header : PacketHeader) (ho : r.msgbuffer.offset = 0)
    (h8 : hdrlen ≤ r.msgbuffer.data.length) :
    (setMsgHeader r header).msgbuffer.data.length = r.msgbuffer.data.length := by
  show (write _ _ _).length = _
  rw [length_write (by rw [length_toBytes, ho]; omega)]

theorem counts_keep {r r' : Reader} {buf len w : Nat} (hR : r.readbuf.length = M_SOCKET_READ_SIZE)
    (ho : r.msgbuffer.offset = 0) (hd : r.msgbuffer.data.length ≤ M_SOCKET_READ_SIZE + hdrlen)
    (h : keep r buf len = .ok r') (hw : w ≤ r.msgbuffer.data.length + len) : Cut.Counts w (.brk r') := by
  obtain ⟨h1, h2, h3, h4⟩ := length_keep h
  rw [hR] at h4
  exact ⟨⟨by rw [h1, hR], h2.trans ho, by omega⟩, by omega⟩

theorem counts_handOver {r : Reader} {buf tran n w off : Nat} {m : List UInt8} {c : Cut}
    (hR : r.readbuf.length = M_SOCKET_READ_SIZE) (h : handOver r buf tran n (read m off n) = .ok c)
    (hw : w ≤ hdrlen + n + tran) : c.Counts w := by
  unfold handOver at h
  split at h
  · cases h; trivial
  · obtain ⟨d, hd, h⟩ := Except.bind_eq_ok.mp h
    cases h
    refine ⟨⟨hR, rfl, ?_⟩, rfl, ?_⟩
    · show ([] : List UInt8).length ≤ _; exact Nat.zero_le _
    · rw [(read_eq_ok hd).2.2]; exact hw

theorem counts_fast {r : Reader} {buf tran : Nat} {c : Cut} (hs : Sane r) (hd : r.msgbuffer.data = [])
    (h : cutFast r buf tran = .ok c) : c.Counts tran := by
  have h0 : r.msgbuffer.data.length = 0 := by rw [hd]; rfl
  unfold cutFast at h
  split at h
  · obtain ⟨r', hk, h⟩ := Except.bind_eq_ok.mp h
    cases h
    exact counts_keep hs.readbuf hs.offset (by omega) hk (by omega)
  · rename_i ht
    obtain ⟨bs, hb, h⟩ := Except.bind_eq_ok.mp h
    have hle := (read_eq_ok hb).1
    simp only at h
    split at h
    · obtain ⟨r', hk, h⟩ := Except.bind_eq_ok.mp h
      cases h
      refine counts_keep ?_ ?_ ?_ hk ?_
      · show (write (write _ _ _) _ _).length = _
        rw [length_write, length_write, hs.readbuf]
        · rw [length_toBytes]; exact hle
        · rw [length_toBytes, length_write (by rw [length_toBytes]; exact hle)]; exact hle
      · exact hs.offset
      · show r.msgbuffer.data.length ≤ _; omega
      · show _ ≤ r.msgbuffer.data.length + tran; omega
    · split at h
      · cases h; trivial
      · refine counts_handOver ?_ h (by omega)
        show (write _ _ _).length = _
        rw [length_write (by rw [length_toBytes]; exact hle), hs.readbuf]

/-- The bytes of a payload that `msgbuffer` holds are added to those of the read once more. -/
theorem counts_body {r : Reader} {header : PacketHeader} {buf tran : Nat} {c : Cut}
    (hR : r.readbuf.length = M_SOCKET_READ_SIZE)
    (ho : r.msgbuffer.offset = 0) (hd : r.msgbuffer.data.length ≤ 2 * M_SOCKET_READ_SIZE + hdrlen)
    (h8 : hdrlen ≤ r.msgbuffer.data.length) (ht : tran ≤ M_SOCKET_READ_SIZE) (hw : header.WF)
    (h : cutBody r header buf tran = .ok c) : c.Counts (tran + weight r.msgbuffer.data) := by
  unfold M_SOCKET_READ_SIZE hdrlen at *
  have hlen : r.msgbuffer.length = r.msgbuffer.data.length := Buffer.length_of_offset ho (by omega)
  have hsz : header.size < 2 ^ 32 := hw.2
  unfold cutBody at h
  simp only [hlen, hdrlen] at h
  rw [sub32_of_le (by omega) h8, u32_of_lt (by omega)] at h
  unfold weight hdrlen
  split at h
  · obtain ⟨r', hk, h⟩ := Except.bind_eq_ok.mp h
    cases h
    have hl := (length_keep hk).2.2.2
    have hm := length_setMsgHeader header.h2n ho h8
    have hR' : (setMsgHeader r header.h2n).readbuf.length = 4 * 1024 := hR
    exact counts_keep hR' ho (by rw [hm]; unfold M_SOCKET_READ_SIZE hdrlen; omega) hk (by rw [hm]; omega)
  · split at h
    · cases h; trivial
    · obtain ⟨r', hk, h⟩ := Except.bind_eq_ok.mp h
      obtain ⟨h1, -, -, hl⟩ := length_keep hk
      rw [hR] at hl
      split at h
      · cases h
      · -- a payload shorter than what was kept of it would ask for a wrapped length
        have hle : r.msgbuffer.data.length - 8 ≤ header.size := by
          by_contra hlt
          unfold sub32 at hl; omega
        rw [sub32_of_le hsz hle] at h
        rw [sub32_of_le (by omega) (by omega)] at h
        exact counts_handOver (by rw [h1]; exact hR) h (by unfold hdrlen; omega)

theorem counts_slow {r : Reader} {buf tran : Nat} {c : Cut} (hs : Sane r) (ht : tran ≤ M_SOCKET_READ_SIZE)
    (h : cutSlow r buf tran = .ok c) : c.Counts (tran + weight r.msgbuffer.data) := by
  have hd := hs.data
  have hR := hs.readbuf
  unfold cutSlow at h
  rw [hs.length, u32_of_lt (by unfold M_SOCKET_READ_SIZE hdrlen at *; omega)] at h
  split at h
  · rename_i hlt
    obtain ⟨r', hk, h⟩ := Except.bind_eq_ok.mp h
    cases h
    exact counts_keep hR hs.offset (by unfold hdrlen at *; omega) hk (by unfold weight; omega)
  · rename_i hge
    obtain ⟨q, hq, h⟩ := Except.bind_eq_ok.mp h
    obtain ⟨bs, hb, h⟩ := Except.bind_eq_ok.mp h
    unfold fillHeader at hq
    simp only [hs.length] at hq
    have hw := wf_n2h (ofBytes bs)
    split at hq
    · rename_i hlt
      obtain ⟨r', hk, hq⟩ := Except.bind_eq_ok.mp hq
      cases hq
      obtain ⟨h1, h2, h3, -⟩ := length_keep hk
      have ho : r'.msgbuffer.offset = 0 := h2.trans hs.offset
      have h8 : r'.msgbuffer.data.length = hdrlen := by omega
      have hm : (setMsgHeader r' (ofBytes bs).n2h).msgbuffer.data.length = hdrlen :=
        (length_setMsgHeader _ ho (Nat.le_of_eq h8.symm)).trans h8
      have hsub : sub32 tran (hdrlen - r.msgbuffer.data.length) = tran - (hdrlen - r.msgbuffer.data.length) :=
        sub32_of_le (by unfold M_SOCKET_READ_SIZE at ht; omega) (by omega)
      have := counts_body (r := setMsgHeader r' (ofBytes bs).n2h) (h1 ▸ hR) ho (by rw [hm]; omega)
        (Nat.le_of_eq hm.symm) (by show sub32 _ _ ≤ _; rw [hsub]; omega) hw h
      unfold weight at this ⊢
      rw [hm, hsub] at this
      rwa [show tran - (hdrlen - r.msgbuffer.data.length) + (hdrlen + (hdrlen - hdrlen)) =
        tran + (r.msgbuffer.data.length + (r.msgbuffer.data.length - hdrlen)) by omega] at this
    · rename_i hge'
      cases hq
      have hm := length_setMsgHeader (ofBytes bs).n2h hs.offset (Nat.not_lt.mp hge')
      have := counts_body (r := setMsgHeader r (ofBytes bs).n2h) hR hs.offset (by rw [hm]; exact hd)
        (by rw [hm]; omega) ht hw h
      unfold weight at this ⊢
      rwa [hm] at this

theorem counts_turn {r : Reader} {buf tran : Nat} {c : Cut} (hs : Sane r)
    (ht : r.msgbuffer.data = [] ∨ tran ≤ M_SOCKET_READ_SIZE) (h : cutTurn r buf tran = .ok c) :
    c.Counts (tran + weight r.msgbuffer.data) := by
  unfold cutTurn at h
  rw [hs.length] at h
  split at h
  · rename_i h0
    have hd := List.eq_nil_of_length_eq_zero h0
    have := counts_fast hs hd h
    rwa [hd, weight_nil, Nat.add_zero]
  · rename_i h0
    exact counts_slow hs (ht.resolve_left fun hd => h0 (by rw [hd]; rfl)) h

theorem cutLoop_ok {r r' : Reader} {buf tran : Nat} {ds : List (List UInt8)}
    (h : cutLoop r buf tran = .ok (r', ds, true)) :
    (cutTurn r buf tran = .ok (.brk r') ∧ ds = []) ∨
      ∃ r₁ buf₁ tran₁ d ds₁, cutTurn r buf tran = .ok (.deliver r₁ buf₁ tran₁ d) ∧ ds = d :: ds₁ ∧
        cutLoop r₁ buf₁ tran₁ = .ok (r', ds₁, true) := by
  cases hc : cutTurn r buf tran with
  | error f =>
    rw [cutLoop] at h
    split at h <;> rename_i e <;> rw [hc] at e <;> cases e
    cases h
  | ok c =>
    cases c with
    | brk r₁ =>
      rw [cutLoop_brk hc] at h
      cases h; exact Or.inl ⟨rfl, rfl⟩
    | fail r₁ =>
      rw [cutLoop] at h
      split at h <;> rename_i e <;> rw [hc] at e <;> cases e
      cases h
    | deliver r₁ buf₁ tran₁ d =>
      rw [cutLoop_deliver hc] at h
      cases hl : cutLoop r₁ buf₁ tran₁ with
      | error f => rw [hl] at h; cases h
      | ok q =>
        obtain ⟨r₂, ds₂, ret⟩ := q
        rw [hl] at h
        cases h; exact Or.inr ⟨r₁, buf₁, tran₁, d, _, rfl, rfl, hl⟩

theorem counts_loop : ∀ (ds : List (List UInt8)) {r r' : Reader} {buf tran : Nat}, Sane r →
    (r.msgbuffer.data = [] ∨ tran ≤ M_SOCKET_READ_SIZE) → cutLoop r buf tran = .ok (r', ds, true) →
    Sane r' ∧ tran + weight r.msgbuffer.data ≤ (stream ds).length + r'.msgbuffer.data.length
  | [], r, r', buf, tran, hs, ht, h => by
    rcases cutLoop_ok h with ⟨hc, -⟩ | ⟨_, _, _, _, _, _, hd, _⟩
    · rw [stream_nil, List.length_nil, Nat.zero_add]
      exact counts_turn hs ht hc
    · cases hd
  | d :: ds, r, r', buf, tran, hs, ht, h => by
    rcases cutLoop_ok h with ⟨_, hd⟩ | ⟨r₁, buf₁, tran₁, d', ds', hc, hd, hl⟩
    · cases hd
    · cases hd
      obtain ⟨hs₁, hd₁, hw⟩ := counts_turn hs ht hc
      obtain ⟨hs', hw'⟩ := counts_loop ds hs₁ (Or.inl hd₁) hl
      rw [hd₁, weight_nil] at hw'
      refine ⟨hs', ?_⟩
      rw [stream_cons, List.length_append, length_packet]
      omega

theorem Sane.recv {r : Reader} (h : Sane r) {x : List UInt8} (hx : x.length ≤ M_SOCKET_READ_SIZE) : Sane (r.recv x) :=
  ⟨(length_write (by rw [h.readbuf]; omega)).trans h.readbuf, h.offset, h.data⟩

theorem readAll_ok {r r' : Reader} {x : List UInt8} {xs ds : List (List UInt8)}
    (h : readAll r (x :: xs) = .ok (r', ds, true)) :
    ∃ r₁ ds₁ ds₂, cutMsgPack (r.recv x) x.length = .ok (r₁, ds₁, true) ∧ readAll r₁ xs = .ok (r', ds₂, true) ∧
      ds = ds₁ ++ ds₂ := by
  rw [readAll] at h
  split at h
  · cases h
  · cases h
  · rename_i r₁ ds₁ hc
    split at h
    · cases h
    · rename_i r₂ ds₂ ret hr
      cases h
      exact ⟨r₁, ds₁, ds₂, hc, hr, rfl⟩

theorem readAll_cons {r r₁ : Reader} {x : List UInt8} {xs ds₁ : List (List UInt8)}
    (h : cutMsgPack (r.recv x) x.length = .ok (r₁, ds₁, true)) :
    readAll r (x :: xs) = (readAll r₁ xs).map fun q => (q.1, ds₁ ++ q.2.1, q.2.2) := by
  rw [readAll, h]
  dsimp only
  cases readAll r₁ xs <;> rfl

/-- The bytes of a connection: what was handed over and what is kept make up for all that came in. -/
theorem counts_readAll : ∀ (xs : List (List UInt8)) {r r' : Reader} {ds : List (List UInt8)}, Sane r →
    (∀ x ∈ xs, x.length ≤ M_SOCKET_READ_SIZE) → readAll r xs = .ok (r', ds, true) →
    Sane r' ∧ weight r.msgbuffer.data + xs.flatten.length ≤ (stream ds).length + weight r'.msgbuffer.data
  | [], r, r', ds, hs, _, h => by
    cases h
    exact ⟨hs, by simp⟩
  | x :: xs, r, r', ds, hs, hx, h => by
    obtain ⟨r₁, ds₁, ds₂, hc, hr, rfl⟩ := readAll_ok h
    have hxl := hx x (by simp)
    obtain ⟨hs₁, hw₁⟩ := counts_loop ds₁ (hs.recv hxl) (Or.inr hxl) hc
    obtain ⟨hs', hw'⟩ := counts_readAll xs hs₁ (fun y hy => hx y (List.mem_cons_of_mem _ hy)) hr
    refine ⟨hs', ?_⟩
    have hrd : (r.recv x).msgbuffer = r.msgbuffer := rfl
    have := le_weight r₁.msgbuffer.data
    rw [hrd] at hw₁
    rw [List.flatten_cons, List.length_append, stream_append, List.length_append]
    omega

/-! ## What the slow path hands over begins with its header -/

theorem head_body {r r' : Reader} {header : PacketHeader} {buf tran buf' tran' : Nat} {d : List UInt8}
    (ho : r.msgbuffer.offset = 0) (hd : ∃ more, r.msgbuffer.data = header.toBytes ++ more)
    (h : cutBody r header buf tran = .ok (.deliver r' buf' tran' d)) : ∀ b ∈ d.head?, b = 0xFC := by
  obtain ⟨more, hd⟩ := hd
  unfold cutBody at h
  simp only at h
  split at h
  · obtain ⟨_, _, h⟩ := Except.bind_eq_ok.mp h
    cases h
  · split at h
    · cases h
    · rename_i hm
      obtain ⟨r₁, hk, h⟩ := Except.bind_eq_ok.mp h
      split at h
      · cases h
      · obtain ⟨-, hr, -⟩ := handOver_deliver h
        obtain ⟨-, -, hkd, hko⟩ := keep_eq_ok hk
        obtain ⟨-, rfl, -⟩ := read_eq_ok hr
        have hts : header.timestamp = M_PACGET_CODE := not_not.mp hm
        have hb : header.toBytes = 0xFC :: (leBytes 3 0xFCFC ++ leBytes 4 header.size) := by
          rw [toBytes, hts]; rfl
        unfold msgData
        rw [hko, ho, hkd, hd, hb, List.drop_zero, List.drop_zero]
        intro b hb'
        cases hn : header.size with
        | zero => rw [hn, List.take_zero] at hb'; cases hb'
        | succ n =>
          rw [hn] at hb'
          simp only [List.cons_append, List.take_succ_cons, List.head?_cons, Option.mem_def, Option.some.injEq] at hb'
          exact hb'.symm

theorem head_slow {r r' : Reader} {buf tran buf' tran' : Nat} {d : List UInt8} (hs : Sane r)
    (h : cutSlow r buf tran = .ok (.deliver r' buf' tran' d)) : ∀ b ∈ d.head?, b = 0xFC := by
  unfold cutSlow at h
  split at h
  · obtain ⟨_, _, h⟩ := Except.bind_eq_ok.mp h
    cases h
  · obtain ⟨q, hq, h⟩ := Except.bind_eq_ok.mp h
    obtain ⟨bs, hb, h⟩ := Except.bind_eq_ok.mp h
    have ho : q.1.msgbuffer.offset = 0 := by
      unfold fillHeader at hq
      simp only at hq
      split at hq
      · obtain ⟨r₁, hk, hq⟩ := Except.bind_eq_ok.mp hq
        cases hq
        exact (keep_eq_ok hk).2.2.2.trans hs.offset
      · cases hq; exact hs.offset
    refine head_body (r := setMsgHeader q.1 _) ho ⟨q.1.msgbuffer.data.drop (0 + (ofBytes bs).n2h.toBytes.length), ?_⟩ h
    show write q.1.msgbuffer.data q.1.msgbuffer.offset _ = _
    rw [ho, write, List.take_zero, List.nil_append]

/-- No byte of a payload handed over first can differ from the header's when some bytes had been kept. -/
theorem head_call {r r' : Reader} {x : List UInt8} {ds : List (List UInt8)} (hs : Sane r)
    (hx : x.length ≤ M_SOCKET_READ_SIZE)
    (hd : r.msgbuffer.data ≠ []) (h : cutMsgPack (r.recv x) x.length = .ok (r', ds, true)) :
    ∀ d ∈ ds.head?, ∀ b ∈ d.head?, b = 0xFC := by
  have hs' := hs.recv hx
  have hne : (r.recv x).msgbuffer.length ≠ 0 := by
    rw [hs'.length]
    exact fun h0 => hd (List.eq_nil_of_length_eq_zero h0)
  rcases cutLoop_ok h with ⟨-, rfl⟩ | ⟨r₁, buf₁, tran₁, d, ds', hc, rfl, -⟩
  · intro d hd; cases hd
  · intro d' hd'
    cases hd'
    rw [cutTurn, if_neg hne] at hc
    exact head_slow hs' hc

/-! ## The reads of one connection -/

/-- A read that ends `n` bytes into the packets of `ps` ends between two of them, or in the
header of one that the slow path maps to itself. -/
def EndOk : List (List UInt8) → Nat → Prop
  | [], _ => True
  | p :: ps, n =>
    if n < hdrlen + p.length then n = 0 ∨ (n ≤ hdrlen ∧ SlowOk p) else EndOk ps (n - (hdrlen + p.length))

theorem endOk_append : ∀ (ps₁ ps₂ : List (List UInt8)) (n : Nat),
    EndOk (ps₁ ++ ps₂) ((stream ps₁).length + n) ↔ EndOk ps₂ n
  | [], ps₂, n => by rw [List.nil_append, stream_nil, List.length_nil, Nat.zero_add]
  | p :: ps₁, ps₂, n => by
    rw [List.cons_append, EndOk, stream_cons, List.length_append, length_packet, if_neg (by omega),
      show hdrlen + p.length + (stream ps₁).length + n - (hdrlen + p.length) = (stream ps₁).length + n by omega]
    exact endOk_append ps₁ ps₂ n

theorem endOk_zero (ps : List (List UInt8)) : EndOk ps 0 := by
  cases ps with
  | nil => trivial
  | cons p ps => rw [EndOk, if_pos (by unfold hdrlen; omega)]; exact Or.inl rfl

theorem Front.le {rest more : List UInt8} {ps : List (List UInt8)} (hf : Front rest more ps)
    (h : EndOk ps rest.length) :
    rest.length ≤ hdrlen := by
  cases ps with
  | nil =>
    have := congrArg List.length hf.eq
    rw [List.length_append, stream_nil, List.length_nil] at this; omega
  | cons p ps =>
    rw [EndOk, if_pos (hf.short p rfl)] at h
    rcases h with h | h
    · omega
    · exact h.1

theorem Front.slowOk {pend more : List UInt8} {p : List UInt8} {ps : List (List UInt8)}
    (hf : Front pend more (p :: ps))
    (h : EndOk (p :: ps) pend.length) (h0 : pend ≠ []) : SlowOk p := by
  rw [EndOk, if_pos (hf.short p rfl)] at h
  rcases h with h | h
  · exact absurd (List.eq_nil_of_length_eq_zero h) h0
  · exact h.2

theorem endOk_reads {pend x rest : List UInt8} {ps₁ ps₂ xs : List (List UInt8)}
    (he : pend ++ x = stream ps₁ ++ rest) :
    (∀ k, EndOk (ps₁ ++ ps₂) (pend.length + ((x :: xs).take k).flatten.length)) ↔
      EndOk (ps₁ ++ ps₂) pend.length ∧ ∀ k, EndOk ps₂ (rest.length + (xs.take k).flatten.length) := by
  have hl : ∀ k, pend.length + ((x :: xs).take (k + 1)).flatten.length =
      (stream ps₁).length + (rest.length + (xs.take k).flatten.length) := by
    intro k
    have := congrArg List.length he
    rw [List.length_append, List.length_append] at this
    rw [List.take_succ_cons, List.flatten_cons, List.length_append]; omega
  constructor
  · intro h
    refine ⟨h 0, fun k => ?_⟩
    have := h (k + 1)
    rwa [hl, endOk_append] at this
  · rintro ⟨h0, h⟩ k
    cases k with
    | zero => exact h0
    | succ k => rw [hl, endOk_append]; exact h k

section
variable {r : Reader} {pend x rest more : List UInt8} {ps₁ ps₂ : List (List UInt8)}
variable (hl : Left M_BUFFER_DEFAILT_SIZE pend r) (hp8 : pend.length ≤ hdrlen) (hx : x.length ≤ M_SOCKET_READ_SIZE)
variable (hps₁ : ∀ p ∈ ps₁, p.length ≤ M_SOCKET_PACK_SIZE) (hps₂ : ∀ p ∈ ps₂, p.length ≤ M_SOCKET_PACK_SIZE)
variable (hpf : Front pend (x ++ more) (ps₁ ++ ps₂)) (he : pend ++ x = stream ps₁ ++ rest) (hf : Front rest more ps₂)
include hl hp8 hx hps₁ hps₂ hpf he hf

theorem cutMsgPack_clean (h : pend ≠ [] → ∀ p ∈ ps₁.head?, SlowOk p) :
    ∃ r', cutMsgPack (r.recv x) x.length = .ok (r', ps₁, true) ∧ Left M_BUFFER_DEFAILT_SIZE rest r' := by
  by_cases hp0 : pend = []
  · subst hp0
    obtain ⟨hl', hr⟩ := recv_left hl hx
    rw [List.nil_append] at he
    rw [he] at hr ⊢
    exact he ▸ cutLoop_fast _ (by decide) more ps₂ rest hf hps₂ ps₁ _ 0 hps₁ (he ▸ hl') hr
  · cases ps₁ with
    | nil => exact cutMsgPack_part hl hp8 hx hps₁ hps₂ hpf he hf hp0 rfl
    | cons p ps =>
      obtain ⟨hfit, hv⟩ := h hp0 p rfl
      have := (cutMsgPack_whole hl hp8 hx hps₁ hps₂ hpf he hf hp0 rfl).1 hfit
      rwa [hv] at this

theorem slowOk_of_cutMsgPack {r' : Reader} {ds ds' : List (List UInt8)}
    (hc : cutMsgPack (r.recv x) x.length = .ok (r', ds, true))
    (hd : ds ++ ds' = ps₁ ++ ps₂) (hp0 : pend ≠ []) : ∀ p ∈ ps₁.head?, SlowOk p := by
  intro p hp
  cases ps₁ with
  | nil => cases hp
  | cons p' ps =>
    cases hp
    obtain ⟨hfit, hbig⟩ := cutMsgPack_whole hl hp8 hx hps₁ hps₂ hpf he hf hp0 rfl
    rcases Nat.lt_or_ge M_BUFFER_DEFAILT_SIZE (hdrlen + p.length) with hlt | hge
    · obtain ⟨f, hb⟩ := hbig hlt
      rw [hb] at hc; cases hc
    · obtain ⟨r₁, hb, -⟩ := hfit hge
      rw [hb] at hc
      cases hc
      rw [List.cons_append, List.cons_append] at hd
      exact ⟨hge, (List.cons.inj hd).1⟩

end

/-- Reads that end in the right places are all delivered, and nothing is kept of them. -/
theorem readAll_of_endOk : ∀ (xs : List (List UInt8)) {r : Reader} {pend : List UInt8} {ps : List (List UInt8)},
    (∀ x ∈ xs, x.length ≤ M_SOCKET_READ_SIZE) → (∀ p ∈ ps, p.length ≤ M_SOCKET_PACK_SIZE) →
    Left M_BUFFER_DEFAILT_SIZE pend r → Front pend xs.flatten ps →
    (∀ k, EndOk ps (pend.length + (xs.take k).flatten.length)) →
    ∃ r', readAll r xs = .ok (r', ps, true) ∧ Left M_BUFFER_DEFAILT_SIZE [] r'
  | [], r, pend, ps, _, _, hl, hpf, _ => by
    have he := hpf.eq
    rw [List.flatten_nil, List.append_nil] at he
    cases ps with
    | nil => exact ⟨r, rfl, by rw [stream_nil] at he; exact he ▸ hl⟩
    | cons p ps =>
      have := hpf.short p rfl
      rw [he, stream_cons, List.length_append, length_packet] at this; omega
  | x :: xs, r, pend, ps, hx, hps, hl, hpf, hk => by
    rw [List.flatten_cons] at hpf
    obtain ⟨ps₁, ps₂, rest, rfl, he, hf⟩ := exists_front ps (pend ++ x) xs.flatten (by
      rw [List.append_assoc]; exact hpf.eq)
    obtain ⟨hk0, hk'⟩ := (endOk_reads he).mp hk
    have hps₁ : ∀ p ∈ ps₁, p.length ≤ M_SOCKET_PACK_SIZE := fun p hp => hps p (List.mem_append_left _ hp)
    have hps₂ : ∀ p ∈ ps₂, p.length ≤ M_SOCKET_PACK_SIZE := fun p hp => hps p (List.mem_append_right _ hp)
    obtain ⟨r₁, hc, hl₁⟩ := cutMsgPack_clean hl (hpf.le hk0) (hx x (by simp)) hps₁ hps₂ hpf he hf (by
      intro hp0 p hp
      cases ps₁ with
      | nil => cases hp
      | cons p' ps => cases hp; exact hpf.slowOk hk0 hp0)
    obtain ⟨r', hr, hl'⟩ := readAll_of_endOk xs (fun y hy => hx y (List.mem_cons_of_mem _ hy)) hps₂ hl₁ hf hk'
    refine ⟨r', ?_, hl'⟩
    rw [readAll_cons hc, hr]; rfl

/-- A connection that delivers what was sent and keeps nothing of it had its reads end in the right places. -/
theorem endOk_of_readAll : ∀ (xs : List (List UInt8)) {r r' : Reader} {pend : List UInt8} {ps : List (List UInt8)},
    (∀ x ∈ xs, x.length ≤ M_SOCKET_READ_SIZE) → (∀ p ∈ ps, p.length ≤ M_SOCKET_PACK_SIZE) →
    Left M_BUFFER_DEFAILT_SIZE pend r → pend.length ≤ hdrlen → Front pend xs.flatten ps →
    readAll r xs = .ok (r', ps, true) → r'.msgbuffer.data = [] →
    ∀ k, EndOk ps (pend.length + (xs.take k).flatten.length)
  | [], r, r', pend, ps, _, _, hl, _, _, h, hd => by
    intro k
    cases h
    rw [List.take_nil, List.flatten_nil, List.length_nil, ← hl.data, hd]
    exact endOk_zero _
  | x :: xs, r, r', pend, ps, hx, hps, hl, hp8, hpf, h, hd => by
    rw [List.flatten_cons] at hpf
    have hxl := hx x (by simp)
    obtain ⟨ps₁, ps₂, rest, rfl, he, hf⟩ := exists_front ps (pend ++ x) xs.flatten (by
      rw [List.append_assoc]; exact hpf.eq)
    have hps₁ : ∀ p ∈ ps₁, p.length ≤ M_SOCKET_PACK_SIZE := fun p hp => hps p (List.mem_append_left _ hp)
    have hps₂ : ∀ p ∈ ps₂, p.length ≤ M_SOCKET_PACK_SIZE := fun p hp => hps p (List.mem_append_right _ hp)
    obtain ⟨r₁, ds₁, ds₂, hc, hr, hds⟩ := readAll_ok h
    have hslow := fun hp0 => slowOk_of_cutMsgPack hl hp8 hxl hps₁ hps₂ hpf he hf hc hds.symm hp0
    obtain ⟨r₁', hc', hl₁⟩ := cutMsgPack_clean hl hp8 hxl hps₁ hps₂ hpf he hf hslow
    rw [hc'] at hc
    cases hc
    have hds₂ := List.append_cancel_left hds
    subst hds₂
    have hel := congrArg List.length he
    rw [List.length_append, List.length_append] at hel
    -- bytes of a payload kept here would still be in `msgbuffer` at the end
    have hrest : rest.length ≤ hdrlen := by
      have hsane : Sane r₁ := ⟨hl₁.readbuf, hl₁.offset, by rw [hl₁.data]; omega⟩
      obtain ⟨-, hw⟩ := counts_readAll xs hsane (fun y hy => hx y (List.mem_cons_of_mem _ hy)) hr
      have hst := congrArg List.length hf.eq
      rw [List.length_append] at hst
      rw [hl₁.data, hd, weight_nil] at hw
      unfold weight at hw
      omega
    have ih := endOk_of_readAll xs (fun y hy => hx y (List.mem_cons_of_mem _ hy)) hps₂ hl₁ hrest hf hr hd
    refine (endOk_reads he).mpr ⟨?_, ih⟩
    by_cases hp0 : pend = []
    · rw [hp0]; exact endOk_zero _
    · cases hpe : ps₁ ++ ps₂ with
      | nil => trivial
      | cons p ps =>
        rw [hpe] at hpf
        rw [EndOk, if_pos (hpf.short p rfl)]
        refine Or.inr ⟨hp8, ?_⟩
        cases ps₁ with
        | nil =>
          have h0 := ih 0
          rw [List.nil_append] at hpe
          rw [hpe, List.take_zero, List.flatten_nil, List.length_nil, Nat.add_zero] at h0
          rw [hpe] at hf
          refine hf.slowOk h0 fun hr0 => hp0 (List.eq_nil_of_length_eq_zero ?_)
          rw [hr0, stream_nil, List.length_nil] at hel; omega
        | cons p' ps' =>
          cases hpe
          exact hslow hp0 p rfl

theorem readAll_append : ∀ (xs ys : List (List UInt8)) {r r₁ : Reader} {ds : List (List UInt8)},
    readAll r xs = .ok (r₁, ds, true) →
    readAll r (xs ++ ys) = (readAll r₁ ys).map fun q => (q.1, ds ++ q.2.1, q.2.2)
  | [], ys, r, r₁, ds, h => by
    cases h
    rw [List.nil_append]
    cases readAll r ys <;> rfl
  | x :: xs, ys, r, r₁, ds, h => by
    obtain ⟨r₂, ds₁, ds₂, hc, hr, rfl⟩ := readAll_ok h
    rw [List.cons_append, readAll_cons hc, readAll_append xs ys hr]
    cases readAll r₁ ys with
    | error f => rfl
    | ok q => simp [Except.map]

/-- `OnReceiveData` is called for each of `ps`, in order and with its bytes, and every call returns true. -/
def Delivers (ps rs : List (List UInt8)) : Prop := ∃ r', readAll Reader.init rs = .ok (r', ps, true)

theorem left_init : Left M_BUFFER_DEFAILT_SIZE [] Reader.init := ⟨List.length_replicate, rfl, rfl, fun _ => rfl⟩

theorem sane_init : Sane Reader.init := ⟨List.length_replicate, rfl, Nat.zero_le _⟩

theorem endOk_packets (qs : List (List UInt8)) (k : Nat) : EndOk qs (((qs.map packet).take k).flatten.length) := by
  have h := endOk_append (qs.take k) (qs.drop k) 0
  rw [List.take_append_drop, Nat.add_zero] at h
  rw [← List.map_take]
  exact h.mpr (endOk_zero _)

/-- A connection delivers what was sent, and goes on doing so for further packets of one read
each, exactly when its reads so far end in the right places. -/
theorem delivers_iff (ps rs : List (List UInt8)) (hps : ∀ p ∈ ps, p.length ≤ M_SOCKET_PACK_SIZE)
    (hrs : ∀ x ∈ rs, 1 ≤ x.length ∧ x.length ≤ M_SOCKET_READ_SIZE) (hst : rs.flatten = stream ps) :
    (∀ qs : List (List UInt8), (∀ q ∈ qs, hdrlen + q.length ≤ M_SOCKET_READ_SIZE) →
      Delivers (ps ++ qs) (rs ++ qs.map packet)) ↔ ∀ k, EndOk ps (rs.take k).flatten.length := by
  have hrs' : ∀ x ∈ rs, x.length ≤ M_SOCKET_READ_SIZE := fun x hx => (hrs x hx).2
  have hfr : Front [] rs.flatten ps := Front.nil hst
  constructor
  · intro h
    obtain ⟨r₁, h1⟩ := h [] (by simp)
    obtain ⟨r₂, h2⟩ := h [[0]] (by decide)
    rw [List.append_nil, List.map_nil, List.append_nil] at h1
    rw [readAll_append rs _ h1] at h2
    -- one more packet tells whether anything was kept
    have hd : r₁.msgbuffer.data = [] := by
      by_contra hd
      have hs₁ := (counts_readAll rs sane_init hrs' h1).1
      cases hq : readAll r₁ ([[0]].map packet) with
      | error f => rw [hq] at h2; cases h2
      | ok q =>
        rw [hq] at h2
        obtain ⟨hq1, hq2⟩ := Prod.mk.inj (Except.ok.inj h2)
        obtain ⟨hq2, hq3⟩ := Prod.mk.inj hq2
        have hq' : readAll r₁ ([[0]].map packet) = .ok (q.1, [[0]], true) := by
          rw [hq, ← List.append_cancel_left hq2, ← hq3]
        obtain ⟨r₃, ds₁, ds₂, hc, hr, hds⟩ := readAll_ok hq'
        cases hr
        rw [List.append_nil] at hds
        rw [← hds] at hc
        have := head_call hs₁ (by rw [length_packet]; decide) hd hc [0] rfl 0 rfl
        cases this
    have := endOk_of_readAll rs hrs' hps left_init (by decide) hfr h1 hd
    simpa using this
  · intro h qs hqs
    obtain ⟨r₁, h1, hl₁⟩ := readAll_of_endOk rs hrs' hps left_init hfr (by simpa using h)
    have hq : ∀ q ∈ qs, q.length ≤ M_SOCKET_PACK_SIZE := by
      intro q hq
      have := hqs q hq
      unfold M_SOCKET_READ_SIZE at this
      unfold M_SOCKET_PACK_SIZE; omega
    obtain ⟨r₂, h2, -⟩ := readAll_of_endOk (qs.map packet) (by
      intro x hx
      obtain ⟨q, hq, rfl⟩ := List.mem_map.mp hx
      rw [length_packet]; exact hqs q hq) hq hl₁ (Front.nil rfl) (by
      intro k
      rw [List.length_nil, Nat.zero_add]; exact endOk_packets qs k)
    refine ⟨r₂, ?_⟩
    rw [readAll_append rs _ h1, h2]; rfl

/-- Two packets in one read, the second with its last byte in the next. -/
theorem delivers_iff_split :
    (∀ qs : List (List UInt8), (∀ q ∈ qs, hdrlen + q.length ≤ M_SOCKET_READ_SIZE) →
      Delivers ([[], [7]] ++ qs) ([packet [] ++ (packet [7]).take 8, [7]] ++ qs.map packet)) ↔
      ∀ k, EndOk [[], [7]] ([packet [] ++ (packet [7]).take 8, [7]].take k).flatten.length :=
  delivers_iff [[], [7]] [packet [] ++ (packet [7]).take 8, [7]] (by decide) (by decide) (by decide)

theorem delivers_slowView {p : List UInt8} (h0 : p ≠ []) (hp : hdrlen + p.length ≤ M_BUFFER_DEFAILT_SIZE) :
    Delivers [slowView p] [(packet p).take hdrlen, p] := by
  have hpk : ∀ q ∈ [p], q.length ≤ M_SOCKET_PACK_SIZE := by
    intro q hq
    cases List.mem_singleton.mp hq
    unfold M_BUFFER_DEFAILT_SIZE at hp; unfold M_SOCKET_PACK_SIZE; omega
  have hpos : 0 < p.length := List.length_pos_iff.mpr h0
  have hh : ((packet p).take hdrlen).length = hdrlen := by rw [List.length_take, length_packet]; omega
  have hcat : (packet p).take hdrlen ++ p = packet p := by
    have ht := toBytes_packet p []
    rw [List.append_nil] at ht
    rw [← ht, packet]
  have hf : Front ((packet p).take hdrlen) p [p] :=
    ⟨by rw [hcat]; simp, fun q hq => by cases hq; rw [hh]; omega⟩
  have hnil : ∀ q ∈ ([] : List (List UInt8)), q.length ≤ M_SOCKET_PACK_SIZE := by simp
  have hnilf : Front [] [] [] := Front.nil rfl
  obtain ⟨r₁, hc₁, hl₁⟩ := cutMsgPack_clean left_init (by decide) (Nat.le_trans (Nat.le_of_eq hh) (by decide))
    hnil hpk (Front.nil (by rw [hcat]; simp)) rfl hf (fun h => absurd rfl h)
  obtain ⟨hfit, -⟩ := cutMsgPack_whole (x := p) hl₁ (Nat.le_of_eq hh)
    (by unfold M_BUFFER_DEFAILT_SIZE at hp; unfold M_SOCKET_READ_SIZE; omega) hpk hnil (by simpa using hf)
    (by rw [hcat]; simp) hnilf (fun h => by rw [h] at hh; exact absurd hh (by decide)) rfl
  obtain ⟨r₂, hc₂, -⟩ := hfit hp
  refine ⟨r₂, ?_⟩
  rw [readAll_cons hc₁, readAll_cons hc₂]; rfl

/-- One payload byte, with its header in a read of its own: a byte of the header is handed over in its place. -/
theorem header_read_alone :
    ([0, 0xFC, 0xFC, 0xFC, 0, 0, 0, 1] ++ [0x41] : List UInt8) = stream [[0x41]] ∧
      ¬ Delivers [[0x41]] [[0, 0xFC, 0xFC, 0xFC, 0, 0, 0, 1], [0x41]] := by
  refine ⟨by decide, ?_⟩
  rintro ⟨r, h⟩
  obtain ⟨r', h'⟩ := delivers_slowView (p := [0x41]) (by decide) (by decide)
  have hv : readAll Reader.init [[0, 0xFC, 0xFC, 0xFC, 0, 0, 0, 1], [0x41]] = .ok (r', [[0xFC]], true) := h'
  rw [hv] at h
  cases h

end GlobalServer
