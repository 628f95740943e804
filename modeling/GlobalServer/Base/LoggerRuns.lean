import GlobalServer.Base.LoggerSound
import Mathlib.Data.List.Infix

/-!
# What the logger writes

While `dump` runs the file gets all that has been accepted, in order. `stop`
lets `dump` write the buffer that it has in hand, if it has one, and no other.
-/

namespace GlobalServer.Logger

open Ring

namespace State

/-- What threads can find: some view fits. -/
def Sound (s : State) : Prop := ∃ full o written, View s full o written

theorem dump_frame (s : State) :
    s.dump.accepted = s.accepted ∧ s.dump.notices = s.notices ∧ s.dump.run = s.run ∧ ∃ l, s.dump.output = s.output ++ l := by
  have hsame : s.output = s.output ++ [] := (List.append_nil _).symm
  unfold dump
  cases s.pos with
  | loop => exact ⟨rfl, rfl, rfl, [], hsame⟩
  | enter => dsimp only; split <;> exact ⟨rfl, rfl, rfl, [], hsame⟩
  | wait =>
    dsimp only
    split
    · split <;> exact ⟨rfl, rfl, rfl, [], hsame⟩
    · exact ⟨rfl, rfl, rfl, [], hsame⟩
  | write => exact ⟨rfl, rfl, rfl, _, rfl⟩
  | clear => exact ⟨rfl, rfl, rfl, [], hsame⟩
  | done => exact ⟨rfl, rfl, rfl, [], hsame⟩

theorem log_frame (s : State) (data : Line) :
    (s.log data).pos = s.pos ∧ (s.log data).run = s.run ∧ (s.log data).output = s.output ∧
      (s.log data).consumer = s.consumer ∧ (s.log data).node_cnt = s.node_cnt := by
  unfold log
  split
  · exact ⟨rfl, rfl, rfl, rfl, rfl⟩
  · split
    · exact ⟨rfl, rfl, rfl, rfl, rfl⟩
    · split <;> exact ⟨rfl, rfl, rfl, rfl, rfl⟩

theorem View.output_prefix {s : State} {full o : Nat} {written : List Line} (h : View s full o written) :
    s.output <+: s.accepted := by
  rw [h.output, ← h.data, contents_eq h.consumer]
  by_cases hpos : s.pos = .clear
  · rw [if_pos hpos, ← List.append_assoc]
    exact List.prefix_append ..
  · rw [if_neg hpos, List.append_nil]
    exact List.prefix_append ..

end State

open State

variable {s : State}

/-- A run leaves a state that fits, and each of its lines is accepted, in order, or discarded with a notice. -/
theorem run_sound {ops : List Op} (hops : ∀ data ∈ lines ops, data.length < bufferSize) (h : s.Sound) :
    (run s ops).Sound ∧ ∃ acc, (run s ops).accepted = s.accepted ++ acc ∧ acc.Sublist (lines ops) ∧
      (run s ops).notices + acc.length = s.notices + (lines ops).length := by
  induction ops generalizing s with
  | nil => exact ⟨h, [], (List.append_nil _).symm, .slnil, rfl⟩
  | cons e ops ih =>
    obtain ⟨full, o, written, h⟩ := h
    cases e with
    | log data =>
      have hlines : lines (.log data :: ops) = data :: lines ops := rfl
      rw [hlines] at hops ⊢
      obtain ⟨⟨full', o', h'⟩, hacc⟩ := h.log (hops data List.mem_cons_self)
      obtain ⟨hs, acc, ha, hsub, hn⟩ := ih (s := s.log data) (fun m hm => hops m (List.mem_cons_of_mem _ hm)) ⟨_, _, _, h'⟩
      refine ⟨hs, ?_⟩
      rcases hacc with ⟨hd, hk⟩ | ⟨hd, hk⟩
      · refine ⟨data :: acc, ?_, hsub.cons_cons data, ?_⟩
        · rw [show run s (.log data :: ops) = run (s.log data) ops from rfl, ha, hd, List.append_assoc]
          rfl
        · rw [show run s (.log data :: ops) = run (s.log data) ops from rfl, List.length_cons, List.length_cons]
          omega
      · refine ⟨acc, ?_, hsub.cons data, ?_⟩
        · rw [show run s (.log data :: ops) = run (s.log data) ops from rfl, ha, hd]
        · rw [show run s (.log data :: ops) = run (s.log data) ops from rfl, List.length_cons]
          omega
    | dump =>
      have hlines : lines (.dump :: ops) = lines ops := rfl
      rw [hlines] at hops ⊢
      obtain ⟨hd, hk, -⟩ := s.dump_frame
      obtain ⟨hs, acc, ha, hsub, hn⟩ := ih (s := s.dump) hops h.dump
      exact ⟨hs, acc, hd ▸ ha, hsub, hk ▸ hn⟩

/-! ## Progress -/

/-- How many steps `dump` is before its next write. -/
def rank : At → Nat
  | .write => 1
  | .wait => 2
  | .enter => 3
  | .loop => 4
  | .clear => 5
  | .done => 0

/-- How many of the first `a` bytes have not been written. -/
def pending (a : Nat) (s : State) : Nat := a - s.output.flatten.length

/-- Each step of `dump` comes nearer to a write, and a write makes bytes leave. -/
theorem dump_progress {a : Nat} (h : s.Sound) (hrun : s.run = true) (hpos : s.pos ≠ .done)
    (ha : a ≤ s.accepted.flatten.length) :
    s.dump.run = true ∧ s.dump.pos ≠ .done ∧
      (pending a s.dump = 0 ∨ 5 * pending a s.dump + rank s.dump.pos + 1 ≤ 5 * pending a s + rank s.pos) := by
  obtain ⟨full, o, written, h⟩ := h
  unfold dump
  cases hp : s.pos with
  | loop =>
    simp only [hrun, if_true]
    exact ⟨trivial, nofun, .inr (Nat.le_refl _)⟩
  | enter =>
    dsimp only
    by_cases hf : (s.node s.consumer).status = .free
    · rw [if_pos hf]
      exact ⟨hrun, nofun, .inr (Nat.le_refl _)⟩
    · rw [if_neg hf]
      exact ⟨hrun, nofun, .inr (Nat.le_succ _)⟩
  | wait =>
    dsimp only
    by_cases hf : (s.node s.consumer).status = .free
    · rw [if_pos hf]
      by_cases hlen : (s.node s.consumer).length > 0
      · rw [if_pos hlen]
        exact ⟨hrun, nofun, .inr (Nat.le_refl _)⟩
      · rw [if_neg hlen]
        refine ⟨hrun, nofun, .inl ?_⟩
        -- Nothing is in the ring.
        obtain ⟨rfl, rfl⟩ := h.full_zero hf
        have hrest : rest s.node_cnt s.buffer s.consumer = [] :=
          rest_eq_nil fun j hj h0 => h.empty j hj (Nat.zero_le j) (Nat.ne_of_gt h0)
        have hacc := h.data
        rw [contents_eq h.consumer, hrest, List.append_nil, ← h.output_eq (by rw [hp]; nofun)] at hacc
        have hbytes : s.accepted.flatten.length = s.output.flatten.length + (s.node s.consumer).length := by
          rw [← hacc, List.flatten_append, List.length_append]
          rfl
        unfold pending
        dsimp only
        omega
    · rw [if_neg hf]
      exact ⟨hrun, nofun, .inr (Nat.le_refl _)⟩
  | write =>
    have hheld := h.held 0 (h.busy (.inl hp))
    rw [cell_zero h.consumer] at hheld
    refine ⟨hrun, nofun, ?_⟩
    have hout : (s.output ++ (s.node s.consumer).buffer).flatten.length =
        s.output.flatten.length + (s.node s.consumer).length := by
      rw [List.flatten_append, List.length_append]
      rfl
    unfold pending rank
    dsimp only
    rw [hout]
    omega
  | clear => exact ⟨hrun, nofun, .inr (Nat.le_refl _)⟩
  | done => exact absurd hp hpos

theorem run_frame (s : State) (ops : List Op) : (run s ops).run = s.run ∧ ∃ l, (run s ops).output = s.output ++ l := by
  induction ops generalizing s with
  | nil => exact ⟨rfl, [], (List.append_nil _).symm⟩
  | cons e ops ih =>
    obtain ⟨hr, l, hl⟩ := ih (step s e)
    have hstep : (step s e).run = s.run ∧ ∃ m, (step s e).output = s.output ++ m := by
      cases e with
      | log data =>
        obtain ⟨-, hr, ho, -⟩ := s.log_frame data
        exact ⟨hr, [], ho.trans (List.append_nil _).symm⟩
      | dump => exact s.dump_frame.2.2
    obtain ⟨hr', m, hm⟩ := hstep
    refine ⟨hr.trans hr', m ++ l, ?_⟩
    rw [show run s (e :: ops) = run (step s e) ops from rfl, hl, hm, List.append_assoc]

theorem progress {a : Nat} {ops : List Op} (hops : ∀ data ∈ lines ops, data.length < bufferSize) (h : s.Sound)
    (hrun : s.run = true) (hpos : s.pos ≠ .done) (ha : a ≤ s.accepted.flatten.length) :
    (run s ops).pos ≠ .done ∧ (pending a (run s ops) = 0 ∨
      5 * pending a (run s ops) + rank (run s ops).pos + dumps ops ≤ 5 * pending a s + rank s.pos) := by
  induction ops generalizing s with
  | nil => exact ⟨hpos, .inr (Nat.le_refl _)⟩
  | cons e ops ih =>
    cases e with
    | log data =>
      have hd : data.length < bufferSize := hops data List.mem_cons_self
      obtain ⟨hp, hr, ho, -⟩ := s.log_frame data
      obtain ⟨full, o, written, h⟩ := h
      obtain ⟨⟨full', o', h'⟩, hacc⟩ := h.log hd
      have hgrow : s.accepted.flatten.length ≤ (s.log data).accepted.flatten.length := by
        rcases hacc with ⟨he, -⟩ | ⟨he, -⟩
        · rw [he, List.flatten_append, List.length_append]
          exact Nat.le_add_right ..
        · rw [he]
      have hs := ih (s := s.log data) (fun m hm => hops m (List.mem_cons_of_mem _ hm)) ⟨_, _, _, h'⟩ (hr ▸ hrun) (hp ▸ hpos)
        (Nat.le_trans ha hgrow)
      have hpend : pending a (s.log data) = pending a s := congrArg (fun l => a - l.flatten.length) ho
      rw [hp, hpend] at hs
      exact hs
    | dump =>
      obtain ⟨hr, hp, hd⟩ := dump_progress h hrun hpos ha
      obtain ⟨full, o, written, h⟩ := h
      obtain ⟨hp', hs⟩ := ih (s := s.dump) hops h.dump hr hp (s.dump_frame.1 ▸ ha)
      refine ⟨hp', ?_⟩
      have hcount : dumps (.dump :: ops) = dumps ops + 1 := List.countP_cons_of_pos rfl
      have hmono : pending a (run s.dump ops) ≤ pending a s.dump := by
        obtain ⟨-, l, hl⟩ := run_frame s.dump ops
        unfold pending
        rw [hl, List.flatten_append, List.length_append]
        omega
      rw [hcount]
      show pending a (run s.dump ops) = 0 ∨
        5 * pending a (run s.dump ops) + rank (run s.dump ops).pos + _ ≤ 5 * pending a s + rank s.pos
      omega

theorem rank_pos {pos : At} (h : pos ≠ .done) : 0 < rank pos ∧ rank pos ≤ 5 := by
  cases pos with
  | done => exact absurd rfl h
  | _ => simp [rank]

/-- While `dump` runs the file gets the accepted lines, each once and in order: what is there after some calls has all
been written once `dump` has taken a few steps for each byte. -/
theorem accepted_lines_written {n : Nat} (hn : 2 ≤ n) {ops : List Op} (hops : ∀ data ∈ lines ops, data.length < bufferSize) :
    (run (start n) ops).output <+: (run (start n) ops).accepted ∧
      (run (start n) ops).accepted.Sublist (lines ops) ∧
      (run (start n) ops).accepted.length + (run (start n) ops).notices = (lines ops).length ∧
      ∀ more, (∀ data ∈ lines more, data.length < bufferSize) →
        5 * ((run (start n) ops).accepted.flatten.length - (run (start n) ops).output.flatten.length + 1) ≤ dumps more →
        (run (start n) ops).accepted.flatten <+: (run (run (start n) ops) more).output.flatten := by
  have h0 : (start n).Sound := ⟨_, _, _, view_start hn⟩
  obtain ⟨hs, acc, hacc, hsub, hcount⟩ := run_sound hops h0
  obtain ⟨hpos, -⟩ := progress hops h0 rfl nofun (Nat.zero_le _)
  have hacc : (run (start n) ops).accepted = acc := hacc
  refine ⟨?_, hacc ▸ hsub, ?_, fun more hmore hlong => ?_⟩
  · obtain ⟨_, _, _, h⟩ := hs
    exact h.output_prefix
  · rw [hacc, Nat.add_comm, hcount]
    exact Nat.zero_add _
  · have hrun : (run (start n) ops).run = true := (run_frame (start n) ops).1
    obtain ⟨⟨_, _, _, hv⟩, acc', hacc', -⟩ := run_sound hmore hs
    obtain ⟨hpos', hdone⟩ := progress hmore hs hrun hpos (Nat.le_refl _)
    have hr := rank_pos hpos
    have hr' := rank_pos hpos'
    have hzero : pending (run (start n) ops).accepted.flatten.length (run (run (start n) ops) more) = 0 := by
      unfold pending at *
      omega
    have hold : (run (start n) ops).accepted.flatten <+: (run (run (start n) ops) more).accepted.flatten := by
      rw [hacc', List.flatten_append]
      exact List.prefix_append ..
    exact List.prefix_of_prefix_length_le hold hv.output_prefix.flatten (Nat.le_of_sub_eq_zero hzero)

/-- One line is written, the next comes to the file in the steps that follow. -/
theorem accepted_lines_written_two :
    let s := run (start 2) [.log [104], .dump, .dump, .dump, .dump, .log [105]]
    s.output = [[104]] ∧ s.output <+: s.accepted ∧ s.accepted.Sublist [[104], [105]] ∧
      s.accepted.length + s.notices = 2 ∧
      s.accepted.flatten <+: (run s (List.replicate 10 .dump)).output.flatten := by
  obtain ⟨h1, h2, h3, h4⟩ := @accepted_lines_written 2 (Nat.le_refl 2)
    [.log [104], .dump, .dump, .dump, .dump, .log [105]] (by decide +kernel)
  exact ⟨by decide +kernel, h1, h2, h3, h4 _ (by decide +kernel) (by decide +kernel)⟩

/-! ## After `stop` -/

/-- What the file will have got when `dump` is at its end, but for lines that are still to come. -/
def due (s : State) : List Line :=
  s.output ++ if s.pos = .enter ∨ s.pos = .wait ∨ s.pos = .write then s.buffer s.consumer else []

/-- The buffer that `dump` has in hand gets no more lines. -/
def Fixed (s : State) : Prop := s.pos = .enter ∨ s.pos = .wait → (s.node s.consumer).status = .full

theorem log_node (s : State) (data : Line) (i : Nat) :
    (∃ l, (s.log data).buffer i = s.buffer i ++ l) ∧ ((s.node i).status = .full → (s.log data).node i = s.node i) := by
  have hput : ∀ t : State, (∃ l, (t.put data).buffer i = t.buffer i ++ l) ∧
      ((t.node t.producer).status ≠ .full → (t.node i).status = .full → (t.put data).node i = t.node i) := by
    intro t
    by_cases hi : i = t.producer
    · refine ⟨⟨[data.take (t.node i).avail], ?_⟩, fun hp hf => absurd (hi ▸ hf) hp⟩
      show (Function.update t.node t.producer _ i).buffer = _
      rw [hi, Function.update_self]
      rfl
    · have he : (t.put data).node i = t.node i := Function.update_of_ne hi ..
      exact ⟨⟨[], by rw [List.append_nil]; exact congrArg Node.buffer he⟩, fun _ _ => he⟩
  have hkeep : ∃ l, s.buffer i = s.buffer i ++ l := ⟨[], (List.append_nil _).symm⟩
  unfold log
  by_cases hf : (s.node s.producer).status = .full
  · rw [if_pos hf]
    exact ⟨hkeep, fun _ => rfl⟩
  · have hturn : (s.node i).status = .full → s.turn.node i = s.node i := fun hi =>
      Function.update_of_ne (fun he : i = s.producer => hf (he ▸ hi)) ..
    rw [if_neg hf]
    by_cases hfit : (s.node s.producer).avail > data.length
    · rw [if_pos hfit]
      exact ⟨(hput s).1, (hput s).2 hf⟩
    · rw [if_neg hfit]
      by_cases hf' : (s.turn.node s.turn.producer).status = .full
      · rw [if_pos hf']
        refine ⟨?_, hturn⟩
        show ∃ l, s.turn.buffer i = _
        rw [buffer_turn]
        exact hkeep
      · rw [if_neg hf']
        obtain ⟨h₁, h₂⟩ := hput s.turn
        rw [buffer_turn] at h₁
        refine ⟨h₁, fun hi => ?_⟩
        have he := hturn hi
        exact (h₂ hf' (he ▸ hi)).trans he

/-- Once `_run` is false what is due only grows, and a fixed buffer makes it final. -/
theorem log_due (h : s.Sound) (data : Line) :
    (due s).flatten <+: (due (s.log data)).flatten ∧ (Fixed s → due (s.log data) = due s ∧ Fixed (s.log data)) := by
  obtain ⟨full, o, written, h⟩ := h
  obtain ⟨hp, -, ho, hc, -⟩ := s.log_frame data
  obtain ⟨⟨l, hl⟩, hkeep⟩ := log_node s data s.consumer
  unfold due Fixed
  rw [hp, ho, hc]
  by_cases hpos : s.pos = .enter ∨ s.pos = .wait ∨ s.pos = .write
  · rw [if_pos hpos, if_pos hpos]
    refine ⟨?_, fun hfix => ?_⟩
    · rw [hl, ← List.append_assoc]
      exact (List.prefix_append ..).flatten
    · have hfull : (s.node s.consumer).status = .full := by
        rcases hpos with hpos | hpos | hpos
        · exact hfix (.inl hpos)
        · exact hfix (.inr hpos)
        · rw [h.status_consumer, if_pos (h.busy (.inl hpos))]
      have he := hkeep hfull
      exact ⟨congrArg (s.output ++ ·) (congrArg Node.buffer he), fun _ => he ▸ hfull⟩
  · rw [if_neg hpos, if_neg hpos]
    exact ⟨List.prefix_rfl, fun _ => ⟨rfl, fun hew => absurd (hew.imp id .inl) hpos⟩⟩

theorem dump_due (hrun : s.run = false) :
    (due s).flatten <+: (due s.dump).flatten ∧ (Fixed s → due s.dump = due s ∧ Fixed s.dump) := by
  have hsame : ∀ {t : State}, due t = due s → (t.pos ≠ .enter ∧ t.pos ≠ .wait) →
      (due s).flatten <+: (due t).flatten ∧ (Fixed s → due t = due s ∧ Fixed t) := by
    intro t he ht
    rw [he]
    exact ⟨List.prefix_rfl, fun _ => ⟨rfl, fun hpos => hpos.elim (fun hpos => absurd hpos ht.1) fun hpos => absurd hpos ht.2⟩⟩
  have htake : s.pos = .enter ∨ s.pos = .wait → due s.take = due s := by
    intro hpos
    have hpos' : s.pos = .enter ∨ s.pos = .wait ∨ s.pos = .write := hpos.imp id .inl
    rw [due, due, if_pos hpos', if_pos (.inr (.inr rfl))]
    rfl
  cases hp : s.pos with
  | loop =>
    have he : s.dump = { s with pos := .done } := by simp [dump, hp, hrun]
    rw [he]
    exact hsame (by simp [due, hp]) (by simp)
  | enter =>
    by_cases hf : (s.node s.consumer).status = .free
    · have he : s.dump = { s with pos := .wait } := by simp [dump, hp, hf]
      rw [he]
      refine ⟨by simp [due, hp, buffer], fun hfix => ?_⟩
      rw [hfix (.inl hp)] at hf
      cases hf
    · have he : s.dump = s.take := by simp [dump, hp, hf]
      rw [he]
      exact hsame (htake (.inl hp)) (by simp [State.take])
  | wait =>
    by_cases hf : (s.node s.consumer).status = .free
    · refine ⟨?_, fun hfix => ?_⟩
      · have hd : due s = s.output ++ s.buffer s.consumer := by simp [due, hp]
        by_cases hlen : (s.node s.consumer).length > 0
        · have he : s.dump = (s.setNode s.consumer { s.node s.consumer with status := .full }).take := by
            simp [dump, hp, hf, hlen]
          have hd' : due s.dump = s.output ++ s.buffer s.consumer := by
            rw [he, due, if_pos (.inr (.inr rfl))]
            show s.output ++ (Function.update s.node s.consumer _ s.consumer).buffer = _
            rw [Function.update_self]
            rfl
          rw [hd, hd']
        · have he : s.dump = { s with pos := .loop } := by simp [dump, hp, hf, hlen]
          have hnil : (s.buffer s.consumer).flatten = [] := List.eq_nil_of_length_eq_zero (Nat.eq_zero_of_not_pos hlen)
          rw [hd, he, List.flatten_append, hnil, List.append_nil]
          simp [due]
      · rw [hfix (.inr hp)] at hf
        cases hf
    · have he : s.dump = s.take := by simp [dump, hp, hf]
      rw [he]
      exact hsame (htake (.inr hp)) (by simp [State.take])
  | write =>
    have he : s.dump = { s with output := s.output ++ s.buffer s.consumer, pos := .clear } := by
      simp [dump, hp, buffer]
    rw [he]
    exact hsame (by simp [due, hp]) (by simp)
  | clear =>
    have he : s.dump = s.release := by simp [dump, hp]
    rw [he]
    exact hsame (by simp [due, hp, release, setNode]) (by simp [release])
  | done =>
    have he : s.dump = s := by simp [dump, hp]
    rw [he]
    exact hsame rfl (by simp [hp])

theorem run_due {ops : List Op} (hops : ∀ data ∈ lines ops, data.length < bufferSize) (h : s.Sound)
    (hrun : s.run = false) :
    (due s).flatten <+: (due (run s ops)).flatten ∧ (Fixed s → due (run s ops) = due s) := by
  induction ops generalizing s with
  | nil => exact ⟨List.prefix_rfl, fun _ => rfl⟩
  | cons e ops ih =>
    cases e with
    | log data =>
      obtain ⟨hp, hf⟩ := log_due h data
      obtain ⟨-, hr, -⟩ := s.log_frame data
      obtain ⟨full, o, written, h⟩ := h
      obtain ⟨⟨full', o', h'⟩, -⟩ := h.log (hops data List.mem_cons_self)
      obtain ⟨hp', hf'⟩ := ih (s := s.log data) (fun m hm => hops m (List.mem_cons_of_mem _ hm)) ⟨_, _, _, h'⟩ (hr ▸ hrun)
      exact ⟨hp.trans hp', fun hfix => (hf' (hf hfix).2).trans (hf hfix).1⟩
    | dump =>
      obtain ⟨hp, hf⟩ := dump_due hrun
      obtain ⟨full, o, written, h⟩ := h
      obtain ⟨hp', hf'⟩ := ih (s := s.dump) hops h.dump (s.dump_frame.2.2.1.trans hrun)
      exact ⟨hp.trans hp', fun hfix => (hf' (hf hfix).2).trans (hf hfix).1⟩

/-- Only the buffer that `dump` has in hand holds anything, and before the test of its loop it has none. -/
def Settled (s : State) : Prop :=
  (∀ i < s.node_cnt, i ≠ s.consumer → (s.node i).length = 0) ∧ (s.pos = .loop → (s.node s.consumer).length = 0)

theorem rest_iff (hc : s.consumer < s.node_cnt) :
    (rest s.node_cnt s.buffer s.consumer).flatten = [] ↔
      ∀ i < s.node_cnt, i ≠ s.consumer → (s.node i).length = 0 := by
  rw [List.flatten_eq_nil_iff]
  constructor
  · intro h i hi hne
    rw [Node.length, List.length_eq_zero_iff, List.flatten_eq_nil_iff]
    exact fun x hx => h x ((mem_rest hc).mpr ⟨i, hi, hne, hx⟩)
  · intro h x hx
    obtain ⟨i, hi, hne, hx⟩ := (mem_rest hc).mp hx
    have hi := h i hi hne
    rw [Node.length, List.length_eq_zero_iff, List.flatten_eq_nil_iff] at hi
    exact hi x hx

/-- How many steps `dump` is before its end at most, once `_run` is false. -/
def steps : At → Nat
  | .enter => 5
  | .wait => 4
  | .write => 3
  | .clear => 2
  | .loop => 1
  | .done => 0

theorem steps_dump (hrun : s.run = false) : steps s.dump.pos ≤ steps s.pos - 1 := by
  unfold dump
  cases hp : s.pos with
  | loop => simp [hrun, steps]
  | enter => dsimp only; split <;> simp [steps, State.take]
  | wait =>
    dsimp only
    split
    · split <;> simp [steps, State.take]
    · simp [steps, State.take]
  | write => simp [steps]
  | clear => simp [steps, release]
  | done => simp [steps, hp]

theorem stop_returns (ops : List Op) (hrun : s.run = false) (hlong : steps s.pos ≤ dumps ops) :
    (run s ops).pos = .done := by
  induction ops generalizing s with
  | nil =>
    have h0 : steps s.pos = 0 := Nat.le_zero.mp hlong
    show s.pos = .done
    cases hp : s.pos with
    | done => rfl
    | _ => rw [hp] at h0; cases h0
  | cons e ops ih =>
    cases e with
    | log data =>
      obtain ⟨hp, hr, -⟩ := s.log_frame data
      exact ih (s := s.log data) (hr ▸ hrun) (hp ▸ hlong)
    | dump =>
      have hcount : dumps (.dump :: ops) = dumps ops + 1 := List.countP_cons_of_pos rfl
      have hstep := steps_dump hrun
      exact ih (s := s.dump) (s.dump_frame.2.2.1.trans hrun) (by omega)

theorem due_cases (h : s.Sound) (hpos : s.pos ≠ .done) :
    (Settled s ∧ (due s).flatten = s.accepted.flatten) ∨
      (¬ Settled s ∧ Fixed s ∧ (due s).flatten.length < s.accepted.flatten.length) := by
  obtain ⟨full, o, written, h⟩ := h
  have hrest := rest_iff h.consumer
  have hacc : s.accepted.flatten = written.flatten ++ ((s.buffer s.consumer).flatten ++
      (rest s.node_cnt s.buffer s.consumer).flatten) := by
    rw [← h.data, contents_eq h.consumer, List.flatten_append, List.flatten_append]
  have hlen : (s.node s.consumer).length = (s.buffer s.consumer).flatten.length := rfl
  have hfixed : ¬ (rest s.node_cnt s.buffer s.consumer).flatten = [] → Fixed s := by
    intro hne _
    by_contra hf
    have hf : (s.node s.consumer).status = .free := by
      cases hst : (s.node s.consumer).status with
      | free => rfl
      | full => exact absurd hst hf
    obtain ⟨rfl, rfl⟩ := h.full_zero hf
    refine hne ?_
    rw [rest_eq_nil fun j hj h0 => h.empty j hj (Nat.zero_le j) (Nat.ne_of_gt h0)]
    rfl
  by_cases hl : s.pos = .loop
  · have hdue : due s = written := by
      rw [due, h.output]
      simp [hl]
    have hfix : Fixed s := by simp [Fixed, hl]
    rw [hdue, hacc, List.length_append, List.length_append]
    by_cases hset : (rest s.node_cnt s.buffer s.consumer).flatten = [] ∧ (s.node s.consumer).length = 0
    · left
      refine ⟨⟨hrest.mp hset.1, fun _ => hset.2⟩, ?_⟩
      have hnil : (s.buffer s.consumer).flatten = [] := List.eq_nil_of_length_eq_zero hset.2
      rw [hset.1, hnil, List.append_nil, List.append_nil]
    · right
      refine ⟨fun hs => hset ⟨hrest.mpr hs.1, hs.2 hl⟩, hfix, ?_⟩
      rw [← List.length_eq_zero_iff] at hset
      omega
  · have hdue : (due s).flatten = written.flatten ++ (s.buffer s.consumer).flatten := by
      rw [due, h.output, ← List.flatten_append]
      cases hp : s.pos with
      | loop => exact absurd hp hl
      | done => exact absurd hp hpos
      | _ => simp
    rw [hdue, hacc]
    by_cases hset : (rest s.node_cnt s.buffer s.consumer).flatten = []
    · left
      refine ⟨⟨hrest.mp hset, fun hp => absurd hp hl⟩, ?_⟩
      rw [hset, List.append_nil]
    · right
      refine ⟨fun hs => hset (hrest.mpr hs.1), hfixed hset, ?_⟩
      rw [← List.length_eq_zero_iff] at hset
      rw [List.length_append, List.length_append, List.length_append]
      omega

/-- `stop` returns when `dump` is at its end. All that had been accepted before it is in the file exactly when no buffer
but the one that `dump` had in hand held anything. -/
theorem stop_writes_iff {n : Nat} (hn : 2 ≤ n) {ops more : List Op} (hops : ∀ data ∈ lines ops, data.length < bufferSize)
    (hmore : ∀ data ∈ lines more, data.length < bufferSize) (hend : (run (run (start n) ops).stop more).pos = .done) :
    (run (start n) ops).accepted.flatten <+: (run (run (start n) ops).stop more).output.flatten ↔
      Settled (run (start n) ops) := by
  have h0 : (start n).Sound := ⟨_, _, _, view_start hn⟩
  obtain ⟨hs, -⟩ := run_sound hops h0
  obtain ⟨hpos, -⟩ := progress hops h0 rfl nofun (Nat.zero_le _)
  generalize run (start n) ops = s at *
  have hs' : s.stop.Sound := by
    obtain ⟨full, o, written, h⟩ := hs
    exact ⟨full, o, written, { h with }⟩
  obtain ⟨hgrow, hfinal⟩ := run_due hmore hs' rfl
  have hout : due (run s.stop more) = (run s.stop more).output := by simp [due, hend]
  rw [hout] at hgrow hfinal
  rcases due_cases hs hpos with ⟨hset, hdue⟩ | ⟨hset, hfix, hdue⟩
  · exact ⟨fun _ => hset, fun _ => hdue ▸ hgrow⟩
  · refine ⟨fun hp => ?_, fun hset' => absurd hset' hset⟩
    have hle := hp.length_le
    rw [hfinal hfix] at hle
    exact absurd hle (Nat.not_le_of_lt hdue)

theorem stop_writes_four :
    (run (start 4) [.log [104], .dump]).accepted.flatten <+:
        (run (run (start 4) [.log [104], .dump]).stop [.dump, .dump, .dump, .dump, .dump]).output.flatten ↔
      Settled (run (start 4) [.log [104], .dump]) :=
  stop_writes_iff (by decide) (by decide +kernel) (by decide) rfl

/-- A line that was logged before the test of the loop is lost. -/
theorem stop_loses :
    (run (start 4) [.log [104]]).accepted = [[104]] ∧ (run (run (start 4) [.log [104]]).stop [.dump]).pos = .done ∧
      (run (run (start 4) [.log [104]]).stop [.dump]).output = [] := by
  decide +kernel

end GlobalServer.Logger
