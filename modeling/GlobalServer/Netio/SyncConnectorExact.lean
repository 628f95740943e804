import GlobalServer.Netio.SyncConnectorSound

/-!
# Which reads `Recv` gets right

The stream of a peer and the reads as the connector sees them have the same
length at every place, and differ in the present read only: there the
connector has the front of the read where the stream has its end.
-/

namespace GlobalServer

open Bytes PacketHeader Chunks

namespace SyncConnector

/-! ## Headers -/

theorem swap_leNat_iff {l : List UInt8} {n : Nat} (hl : l.length = 4) (hn : n < 256 ^ 4) :
    swap 4 (leNat l) = n ↔ l = leBytes 4 (swap 4 n) := by
  have hw := leNat_lt l
  have hb := leBytes_leNat l
  rw [hl] at hw hb
  constructor
  · rintro rfl
    rw [swap_swap 4 _ hw, hb]
  · rintro rfl
    rw [leNat_leBytes 4 _ (swap_lt 4 n), swap_swap 4 _ hn]

theorem drop_frame_iff {t : Nat} {p l : List UInt8} (hp : p.length ≤ maxLen) (hl : hdrlen + p.length ≤ l.length) :
    (l.take (frame t p).length).drop 4 = (frame t p).drop 4 ↔
      announced l = p.length ∧ (l.drop hdrlen).take p.length = p := by
  unfold maxLen hdrlen at *
  have e1 : (l.take (frame t p).length).drop 4 = (l.drop 4).take 4 ++ (l.drop 8).take p.length := by
    have h4 : hdrlen + p.length - 4 = 4 + p.length := by unfold hdrlen; omega
    rw [length_frame, List.drop_take, h4, List.take_add, List.drop_drop]
  have e2 : (frame t p).drop 4 = leBytes 4 (swap 4 p.length) ++ p := by
    rw [frame, toBytes, List.append_assoc, List.drop_left' (length_leBytes 4 _)]
    rfl
  have e3 : announced l = swap 4 (leNat ((l.drop 4).take 4)) := by
    have h4 : (l.take hdrlen).drop 4 = (l.drop 4).take 4 := List.drop_take
    show swap 4 (leNat (((l.take hdrlen).drop 4).take 4)) = _
    rw [h4, List.take_take, Nat.min_self]
  have h4 : ((l.drop 4).take 4).length = 4 := by rw [List.length_take, List.length_drop]; omega
  rw [e1, e2, e3, swap_leNat_iff h4 (by omega)]
  constructor
  · intro h
    exact List.append_inj h (by rw [h4, length_leBytes])
  · rintro ⟨h1, h2⟩
    rw [h1, h2]

/-! ## What the connector sees -/

/-- What the connector takes for the rest of the present read. -/
def stale (c : Cursor UInt8) : List UInt8 := c.chunk.take c.here.length

/-- The reads as the connector sees them. -/
def view (c : Cursor UInt8) : List (List UInt8) := stale c :: c.later

theorem length_stale (c : Cursor UInt8) : (stale c).length = c.here.length := by
  unfold stale Cursor.here
  rw [List.length_take, List.length_drop]
  omega

theorem length_view (c : Cursor UInt8) : (view c).flatten.length = c.rest.length := by
  rw [view, List.flatten_cons, Cursor.rest, List.length_append, List.length_append, length_stale]

theorem view_enter (ys : List (List UInt8)) (m : Nat) : view (Cursor.enter ys m) = reread ys m := by
  induction ys generalizing m with
  | nil => rfl
  | cons y ys ih =>
    simp only [Cursor.enter, reread]
    split
    · rw [view, stale, Cursor.here, List.length_drop]
    · exact ih (m - y.length)

theorem view_adv (c : Cursor UInt8) (m : Nat) : view (c.adv m) = reread (view c) m := by
  unfold Cursor.adv
  rcases Nat.lt_or_ge c.here.length m with h | h
  · rw [if_neg (Nat.not_le.mpr h), view_enter]
    show _ = reread (stale c :: c.later) m
    rw [reread_of_lt (by rw [length_stale]; exact h), length_stale]
  · have hh : ({ c with used := c.used + m } : Cursor UInt8).here.length = c.here.length - m := by
      show (c.chunk.drop (c.used + m)).length = (c.chunk.drop c.used).length - m
      rw [List.length_drop, List.length_drop]
      omega
    rw [if_pos h, view, view, reread_of_le (by rw [length_stale]; exact h), length_stale, stale, hh, stale,
      List.take_take, Nat.min_eq_left (Nat.sub_le _ _)]

/-- From the fifth byte on, the present read begins with what it holds of the next `n` bytes. -/
def Agrees (c : Cursor UInt8) (n : Nat) : Prop := ((stale c).take n).drop 4 = (c.here.take n).drop 4

instance (c : Cursor UInt8) (n : Nat) : Decidable (Agrees c n) := inferInstanceAs (Decidable (_ = _))

theorem agrees_iff {c : Cursor UInt8} {f more : List UInt8} (h : c.rest = f ++ more) :
    Agrees c f.length ↔ ((view c).flatten.take f.length).drop 4 = f.drop 4 := by
  have hf : f = c.here.take f.length ++ c.later.flatten.take (f.length - c.here.length) := by
    rw [← List.take_append]
    show f = c.rest.take f.length
    rw [h, List.take_left' rfl]
  have hl : ((stale c).take f.length).length = (c.here.take f.length).length := by
    rw [List.length_take, List.length_take, length_stale]
  unfold Agrees
  conv => rhs; rhs; rw [hf]
  rw [view, List.flatten_cons, List.take_append, length_stale, List.drop_append, List.drop_append, hl,
    List.append_left_inj]

/-- After the last packet the connector waits in vain: what it takes for the next one is not complete. When it
announces too much, the rest of the read with its header counts for nothing, and `_rcvbuffer` must have room. -/
def Idle (c : Cursor UInt8) : Prop :=
  (view c).flatten.length < hdrlen ∨
    (announced (view c).flatten ≤ maxLen ∧ (view c).flatten.length < hdrlen + announced (view c).flatten) ∨
    (maxLen < announced (view c).flatten ∧ (c.adv hdrlen).later.flatten.length < announced (view c).flatten ∧
      hdrlen + (c.adv hdrlen).later.flatten.length < room)

instance (c : Cursor UInt8) : Decidable (Idle c) := inferInstanceAs (Decidable (_ ∨ _))

/-- At each packet the read it begins in agrees with it, and after the last one the connector waits. -/
def Meets : Cursor UInt8 → List (Nat × List UInt8) → Prop
  | c, [] => Idle c
  | c, q :: ps => Agrees c (hdrlen + q.2.length) ∧ Meets (c.adv (hdrlen + q.2.length)) ps

instance decidableMeets : (c : Cursor UInt8) → (ps : List (Nat × List UInt8)) → Decidable (Meets c ps)
  | c, [] => inferInstanceAs (Decidable (Idle c))
  | _, _ :: ps => @instDecidableAnd _ _ _ (decidableMeets _ ps)

/-! ## One packet -/

theorem tail_reread (c : Cursor UInt8) : (reread (view c) hdrlen).tail = (c.adv hdrlen).later := by
  rw [← view_adv]; rfl

theorem scan_view (c : Cursor UInt8) :
    scan (.header []) (view c) =
      if (view c).flatten.length < hdrlen then none
      else if maxLen < announced (view c).flatten then
        scanOver (announced (view c).flatten) (c.adv hdrlen).later
      else if (view c).flatten.length < hdrlen + announced (view c).flatten then none
      else some (((view c).flatten.drop hdrlen).take (announced (view c).flatten),
        view (c.adv (hdrlen + announced (view c).flatten))) := by
  rw [scan_header (view c) [] (by decide), view_adv, ← tail_reread]
  simp only [List.length_nil, Nat.zero_add, List.nil_append, Nat.sub_zero]

theorem room_view_iff (c : Cursor UInt8) : Phase.Room (view c) (.header []) ↔
    (hdrlen ≤ (view c).flatten.length → maxLen < announced (view c).flatten →
      hdrlen + (c.adv hdrlen).later.flatten.length < room) := by
  simp only [Phase.Room, List.length_nil, Nat.zero_add, List.nil_append, Nat.sub_zero, tail_reread]

theorem later_le (c : Cursor UInt8) (h : hdrlen ≤ c.rest.length) :
    hdrlen + (c.adv hdrlen).later.flatten.length ≤ c.rest.length := by
  have := congrArg List.length (c.rest_adv hdrlen h)
  rw [Cursor.rest, List.length_append, List.length_drop] at this
  omega

theorem room_of_length (c : Cursor UInt8) (h : c.rest.length < room) : Phase.Room (view c) (.header []) := by
  rw [room_view_iff]
  intro h8 _
  have := later_le c (by rw [← length_view]; exact h8)
  omega

theorem idle_iff (c : Cursor UInt8) : Idle c ↔ Phase.Room (view c) (.header []) ∧
    scan (.header []) (view c) = none := by
  rw [room_view_iff, scan_view]
  unfold Idle scanOver
  generalize announced (view c).flatten = size
  rcases Nat.lt_or_ge (view c).flatten.length hdrlen with h8 | h8
  · simp only [h8, if_true, true_or, and_true, true_iff]
    intro h; omega
  · rw [if_neg (Nat.not_lt.mpr h8)]
    rcases Nat.lt_or_ge maxLen size with hbig | hfit
    · rw [if_pos hbig]
      simp only [ite_eq_left_iff, reduceCtorEq, imp_false, not_not]
      constructor
      · rintro (h | h | h)
        · omega
        · omega
        · exact ⟨fun _ _ => h.2.2, h.2.1⟩
      · rintro ⟨h1, h2⟩
        exact .inr (.inr ⟨hbig, h2, h1 h8 hbig⟩)
    · rw [if_neg (Nat.not_lt.mpr hfit)]
      simp only [ite_eq_left_iff, reduceCtorEq, imp_false, not_not]
      constructor
      · rintro (h | h | h)
        · omega
        · exact ⟨fun _ hbig => by omega, h.2⟩
        · omega
      · rintro ⟨-, h⟩
        exact .inr (.inl ⟨hfit, h⟩)

theorem scan_view_some {c : Cursor UInt8} {p : List UInt8} {v : List (List UInt8)} (hp : p.length ≤ maxLen)
    (h : scan (.header []) (view c) = some (p, v)) :
    announced (view c).flatten = p.length ∧ ((view c).flatten.drop hdrlen).take p.length = p ∧
      v = view (c.adv (hdrlen + p.length)) := by
  rw [scan_view] at h
  generalize announced (view c).flatten = size at h ⊢
  split at h
  · cases h
  · split at h
    · -- the packet of a header that announces too much is longer than `p`
      rename_i hbig
      unfold scanOver at h
      split at h
      · cases h
      · simp only [Option.some.injEq, Prod.mk.injEq] at h
        have hn := congrArg List.length h.1
        rw [List.length_take] at hn
        omega
    · split at h
      · cases h
      · simp only [Option.some.injEq, Prod.mk.injEq] at h
        obtain ⟨h1, h2⟩ := h
        have hn := congrArg List.length h1
        rw [List.length_take, List.length_drop] at hn
        have hs : size = p.length := by omega
        subst hs
        exact ⟨rfl, h1, h2.symm⟩

theorem agrees_scan_iff {c : Cursor UInt8} {t : Nat} {p more : List UInt8} (hp : p.length ≤ maxLen)
    (hc : c.rest = frame t p ++ more) : Agrees c (hdrlen + p.length) ↔
    Phase.Room (view c) (.header []) ∧ scan (.header []) (view c) = some (p, view (c.adv (hdrlen + p.length))) := by
  have hl : hdrlen + p.length ≤ (view c).flatten.length := by
    rw [length_view, hc, List.length_append, length_frame]
    exact Nat.le_add_right _ _
  have ha := agrees_iff hc
  rw [drop_frame_iff hp hl, length_frame] at ha
  rw [ha]
  constructor
  · rintro ⟨h1, h2⟩
    rw [room_view_iff, scan_view, if_neg (by omega), h1, if_neg (by omega), if_neg (by omega), h2]
    exact ⟨fun _ h => by omega, rfl⟩
  · rintro ⟨-, h⟩
    obtain ⟨h1, h2, -⟩ := scan_view_some hp h
    exact ⟨h1, h2⟩

/-! ## All of the packets -/

/-- What a peer sends for these packets, each with the timestamp of its header. -/
def frames (ps : List (Nat × List UInt8)) : List UInt8 := (ps.map fun q => frame q.1 q.2).flatten

theorem frames_cons (q : Nat × List UInt8) (ps : List (Nat × List UInt8)) :
    frames (q :: ps) = frame q.1 q.2 ++ frames ps := rfl

/-- What `Recv` is to return for these packets. -/
def returned (ps : List (Nat × List UInt8)) : List (Option (List UInt8)) := ps.map fun q => some q.2

theorem returned_cons (q : Nat × List UInt8) (ps : List (Nat × List UInt8)) :
    returned (q :: ps) = some q.2 :: returned ps := rfl

/-- Successive calls of `Recv` return the payloads of `ps`, each once and in order, and then nothing. -/
def Gives (s : SyncConnector) (reads : List (List UInt8)) (ps : List (Nat × List UInt8)) : Prop :=
  ∀ m, s.recvs m reads = .ok ((returned ps ++ List.replicate m none).take m)

section
variable {s : SyncConnector} {reads : List (List UInt8)}

theorem gives_of_closed {s' : SyncConnector} {reads' : List (List UInt8)} (hr : s.recv reads = .ok (s', reads', none))
    (hs : s'.started = false) : Gives s reads [] := by
  intro m
  cases m with
  | zero => rfl
  | succ m =>
    rw [recvs, hr, Except.ok_bind]
    show (recvs m s' reads' >>= _) = _
    rw [recvs_closed hs, Except.ok_bind, returned, List.map_nil, List.nil_append, List.take_of_length_le (by simp),
      List.replicate_succ]

theorem gives_cons_iff {s' : SyncConnector} {reads' : List (List UInt8)} {q : Nat × List UInt8}
    {ps : List (Nat × List UInt8)} (hr : s.recv reads = .ok (s', reads', some q.2)) :
    Gives s reads (q :: ps) ↔ Gives s' reads' ps := by
  have hm : ∀ m, (returned (q :: ps) ++ List.replicate (m + 1) none).take (m + 1) =
      some q.2 :: (returned ps ++ List.replicate m none).take m := by
    intro m
    rw [returned_cons, List.cons_append, List.take_succ_cons, List.replicate_succ', ← List.append_assoc,
      List.take_append_of_le_length (by simp)]
  have hs : ∀ m, s.recvs (m + 1) reads = (s'.recvs m reads').map (some q.2 :: ·) := by
    intro m
    rw [recvs, hr, Except.ok_bind]
    show (recvs m s' reads' >>= _) = _
    cases recvs m s' reads' <;> rfl
  constructor
  · intro h m
    have h1 := h (m + 1)
    rw [hm, hs] at h1
    cases hx : s'.recvs m reads' with
    | error f => rw [hx] at h1; cases h1
    | ok l =>
      rw [hx] at h1
      simp only [Except.map, Except.ok.injEq, List.cons.injEq, true_and] at h1
      rw [h1]
  · intro h m
    cases m with
    | zero => rfl
    | succ m => rw [hm, hs, h m]; rfl

theorem gives_head {s' : SyncConnector} {reads' : List (List UInt8)} {r : Option (List UInt8)}
    {ps : List (Nat × List UInt8)} (hr : s.recv reads = .ok (s', reads', r)) (h : Gives s reads ps) :
    r = ps.head?.map Prod.snd := by
  have h1 := h 1
  rw [recvs, hr, Except.ok_bind] at h1
  have h2 := congrArg (fun o : Except Fault (List (Option (List UInt8))) => (o.toOption.bind List.head?)) h1
  cases ps with
  | nil => exact Option.some.inj h2
  | cons q ps => exact Option.some.inj h2

end

theorem gives_of_meets (tail : List UInt8) (ps : List (Nat × List UInt8)) : ∀ (s : SyncConnector)
    (reads : List (List UInt8)) (c : Cursor UInt8), (∀ q ∈ ps, q.2.length ≤ maxLen) → Between s reads (view c) →
    c.rest = frames ps ++ tail → Meets c ps → Gives s reads ps := by
  induction ps with
  | nil =>
    intro s reads c _ hb _ hm
    obtain ⟨hroom, hn⟩ := (idle_iff c).mp hm
    obtain ⟨s', reads', hr, hs⟩ := (recv_scan hb hroom).1 hn
    exact gives_of_closed hr hs
  | cons q ps ih =>
    intro s reads c hps hb hc hm
    rw [frames_cons, List.append_assoc] at hc
    obtain ⟨hroom, hscan⟩ := (agrees_scan_iff (hps q (by simp)) hc).mp hm.1
    obtain ⟨s', reads', hr, hb'⟩ := (recv_scan hb hroom).2 _ _ hscan
    refine (gives_cons_iff hr).mpr (ih s' reads' _ (fun q' hq' => hps q' (List.mem_cons_of_mem q hq')) hb' ?_ hm.2)
    rw [← length_frame q.1, Cursor.rest_adv _ _ (by rw [hc, List.length_append]; omega), hc, List.drop_left' rfl]

theorem meets_of_gives (tail : List UInt8) (ps : List (Nat × List UInt8)) : ∀ (s : SyncConnector)
    (reads : List (List UInt8)) (c : Cursor UInt8), (∀ q ∈ ps, q.2.length ≤ maxLen) → Between s reads (view c) →
    c.rest = frames ps ++ tail → c.rest.length < room → Gives s reads ps → Meets c ps := by
  induction ps with
  | nil =>
    intro s reads c _ hb _ hl hg
    have hroom := room_of_length c hl
    refine (idle_iff c).mpr ⟨hroom, ?_⟩
    cases hs : scan (.header []) (view c) with
    | none => rfl
    | some o =>
      obtain ⟨s', reads', hr, -⟩ := (recv_scan hb hroom).2 o.1 o.2 hs
      exact absurd (gives_head hr hg) (by simp)
  | cons q ps ih =>
    intro s reads c hps hb hc hl hg
    have hroom := room_of_length c hl
    rw [frames_cons, List.append_assoc] at hc
    cases hs : scan (.header []) (view c) with
    | none =>
      obtain ⟨s', reads', hr, -⟩ := (recv_scan hb hroom).1 hs
      exact absurd (gives_head hr hg) (by simp)
    | some o =>
      obtain ⟨s', reads', hr, hb'⟩ := (recv_scan hb hroom).2 o.1 o.2 hs
      have hq : o.1 = q.2 := Option.some.inj (gives_head hr hg)
      have hp := hps q (by simp)
      obtain ⟨-, -, hv⟩ := scan_view_some (p := o.1) (by rw [hq]; exact hp) hs
      have hs' : scan (.header []) (view c) = some (q.2, view (c.adv (hdrlen + q.2.length))) := by
        rw [hs, ← hq, ← hv]
      rw [hq] at hr hv
      rw [hv] at hb'
      have hadv : (c.adv (hdrlen + q.2.length)).rest = frames ps ++ tail := by
        rw [← length_frame q.1, Cursor.rest_adv _ _ (by rw [hc, List.length_append]; omega), hc, List.drop_left' rfl]
      have hle : (c.adv (hdrlen + q.2.length)).rest.length ≤ c.rest.length := by
        have hlen := congrArg List.length hc
        rw [List.length_append] at hlen
        rw [hadv, hlen]
        exact Nat.le_add_left _ _
      exact ⟨(agrees_scan_iff hp hc).mpr ⟨hroom, hs'⟩,
        ih s' reads' _ (fun q' hq' => hps q' (List.mem_cons_of_mem q hq')) hb' hadv (Nat.lt_of_le_of_lt hle hl)
          ((gives_cons_iff hr).mp hg)⟩

theorem between_connect (reads : List (List UInt8)) (hr : ∀ x ∈ reads, x ≠ [] ∧ x.length ≤ M_SOCKET_READ_SIZE) :
    Between init.connect reads (view (Cursor.start reads)) :=
  ⟨rfl, rfl, List.length_replicate, ⟨[], rfl, rfl, rfl⟩, hr⟩

/-- `Recv` against the packets of a peer and whatever follows them, nothing or a packet that announces too much:
it returns just these packets when the reads meet the condition, and otherwise not, as far as `_rcvbuffer` can
hold the stream. -/
theorem recv_gives (ps : List (Nat × List UInt8)) (tail : List UInt8) (reads : List (List UInt8))
    (hps : ∀ q ∈ ps, q.2.length ≤ maxLen) (hr : ∀ x ∈ reads, x ≠ [] ∧ x.length ≤ M_SOCKET_READ_SIZE)
    (he : reads.flatten = frames ps ++ tail) :
    (Meets (Cursor.start reads) ps → Gives init.connect reads ps) ∧
      (reads.flatten.length < room → Gives init.connect reads ps → Meets (Cursor.start reads) ps) :=
  ⟨gives_of_meets tail ps _ reads _ hps (between_connect reads hr) he,
    fun hl => meets_of_gives tail ps _ reads _ hps (between_connect reads hr) he hl⟩

/-- A header and a payload that span reads, a payload of no bytes, and a header that announces 65528. -/
theorem recv_gives_split :
    Gives init.connect [[0, 0, 0, 5, 0], [0, 0, 2, 65, 66], [0, 0, 0, 6, 0, 0, 0, 0],
    [0, 0, 0, 7, 0, 0, 255, 248, 67]]
      [(5, [65, 66]), (6, [])] :=
  (recv_gives [(5, [65, 66]), (6, [])] [0, 0, 0, 7, 0, 0, 255, 248, 67] _ (by decide) (by decide) (by decide)).1
    (by decide)

/-- Two packets in one read: the second call returns the first packet again. -/
theorem first_packet_again :
    init.connect.recvs 2 [frame M_PACGET_CODE [65] ++ frame M_PACGET_CODE [66]] = .ok [some [65], some [65]] ∧
      ¬ Gives init.connect [frame M_PACGET_CODE [65] ++ frame M_PACGET_CODE [66]]
        [(M_PACGET_CODE, [65]), (M_PACGET_CODE, [66])] := by
  have h : init.connect.recvs 2 [frame M_PACGET_CODE [65] ++ frame M_PACGET_CODE [66]] =
      .ok [some [65], some [65]] := by decide +kernel
  refine ⟨h, fun hg => ?_⟩
  have h2 := hg 2
  rw [h] at h2
  simp [returned] at h2

end SyncConnector

end GlobalServer
