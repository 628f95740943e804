import GlobalServer.Base.Logger
import GlobalServer.Lib.Ring

/-!
# The ring of the logger

From `_consumer` on there are some full buffers, and the others are free. The
producer stands right behind the full ones, or, after the ring has been full, on
one of them, where `log` discards its lines until `dump` has caught up. Read
round from `_consumer` the buffers hold what has been accepted and not yet
written, in this order.
-/

namespace GlobalServer.Logger

open Ring

namespace State

def buffer (s : State) (i : Nat) : List Line := (s.node i).buffer

def writing (s : State) : Prop := s.pos = .write ∨ s.pos = .clear

/-- `full` buffers from the consumer on are full, and the producer is `o` steps behind the consumer. `written` is what the
file had before the consumer's buffer. -/
structure View (s : State) (full o : Nat) (written : List Line) : Prop where
  size : 2 ≤ s.node_cnt
  consumer : s.consumer < s.node_cnt
  full_le : full ≤ s.node_cnt
  status : ∀ j < s.node_cnt, (s.node (cell s.node_cnt s.consumer j)).status = if j < full then .full else .free
  producer : s.producer = cell s.node_cnt s.consumer o
  mode : o = full ∧ full < s.node_cnt ∨ o = 0 ∧ 0 < full ∧ (s.writing → full = s.node_cnt) ∨
    o = 1 ∧ 1 < full ∧ s.writing
  busy : s.writing → 0 < full
  empty : ∀ j < s.node_cnt, full ≤ j → j ≠ o → s.buffer (cell s.node_cnt s.consumer j) = []
  held : ∀ j < full, 0 < (s.node (cell s.node_cnt s.consumer j)).length
  data : written ++ contents s.node_cnt s.buffer s.consumer = s.accepted
  output : s.output = written ++ if s.pos = .clear then s.buffer s.consumer else []

theorem view_start {n : Nat} (hn : 2 ≤ n) : View (start n) 0 0 [] where
  size := hn
  consumer := Nat.lt_of_lt_of_le Nat.zero_lt_two hn
  full_le := Nat.zero_le n
  status := fun _ _ => rfl
  producer := (Nat.zero_mod n).symm
  mode := .inl ⟨rfl, Nat.lt_of_lt_of_le Nat.zero_lt_two hn⟩
  busy := fun h => nomatch h
  empty := fun _ _ _ _ => rfl
  held := nofun
  data := by simp [contents, buffer, start]
  output := rfl

variable {s : State} {full o : Nat} {written : List Line}

theorem View.pos_size (h : View s full o written) : 0 < s.node_cnt := Nat.lt_of_lt_of_le Nat.zero_lt_two h.size

theorem View.o_lt (h : View s full o written) : o < s.node_cnt := by
  have hsize := h.size
  rcases h.mode with ⟨rfl, hlt⟩ | ⟨rfl, -⟩ | ⟨rfl, -⟩ <;> omega

theorem View.free (h : View s full o written) (hf : (s.node s.producer).status ≠ .full) : o = full ∧ full < s.node_cnt := by
  have hst := h.status o h.o_lt
  rw [← h.producer] at hst
  rcases h.mode with hm | ⟨rfl, hm, -⟩ | ⟨rfl, hm, -⟩
  · exact hm
  · exact absurd (hst.trans (if_pos hm)) hf
  · exact absurd (hst.trans (if_pos hm)) hf

theorem buffer_setNode (s : State) (i : Nat) (b : Node) : (s.setNode i b).buffer = Function.update s.buffer i b.buffer := by
  funext j
  unfold buffer setNode Function.update
  by_cases hj : j = i
  · subst hj
    simp
  · simp [hj]

/-! ## What `log` does -/

theorem status_put (s : State) (data : Line) (i : Nat) : ((s.put data).node i).status = (s.node i).status := by
  show (Function.update s.node s.producer _ i).status = _
  by_cases hi : i = s.producer
  · rw [hi, Function.update_self]
    rfl
  · rw [Function.update_of_ne hi]

theorem View.put (h : View s full full written) (hfull : full < s.node_cnt) {data : Line}
    (hfit : data.length ≤ (s.node s.producer).avail) : View (s.put data) full full written := by
  have hp : s.producer = cell s.node_cnt s.consumer full := h.producer
  have happ : ((s.node s.producer).append data).buffer = s.buffer s.producer ++ [data] := by
    rw [Node.append, List.take_of_length_le hfit]
    rfl
  have hbuf : (s.put data).buffer = Function.update s.buffer s.producer (s.buffer s.producer ++ [data]) := by
    rw [← happ]
    exact buffer_setNode ..
  have hother : ∀ j < s.node_cnt, j ≠ full →
      (s.put data).node (cell s.node_cnt s.consumer j) = s.node (cell s.node_cnt s.consumer j) := by
    intro j hj hne
    refine Function.update_of_ne (fun he => hne ?_) ..
    exact (cell_inj hj hfull).mp (he.trans hp)
  refine ⟨h.size, h.consumer, h.full_le, ?_, hp, h.mode, h.busy, ?_, ?_, ?_, ?_⟩
  · intro j hj
    rw [← h.status j hj]
    exact status_put s data _
  · intro j hj hle hne
    show ((s.put data).node (cell s.node_cnt s.consumer j)).buffer = _
    rw [hother j hj hne]
    exact h.empty j hj hle hne
  · intro j hj
    show 0 < ((s.put data).node (cell s.node_cnt s.consumer j)).length
    rw [hother j (Nat.lt_trans hj hfull) (Nat.ne_of_lt hj)]
    exact h.held j hj
  · show written ++ contents s.node_cnt (s.put data).buffer s.consumer = s.accepted ++ [data]
    rw [hbuf, hp, contents_put hfull fun j hj hlt => h.empty j hj (Nat.le_of_lt hlt) (Nat.ne_of_gt hlt), ← List.append_assoc,
      h.data]
  · show s.output = written ++ if s.pos = .clear then ((s.put data).node s.consumer).buffer else []
    rw [h.output]
    by_cases hpos : s.pos = .clear
    · have hc := hother 0 h.pos_size (Nat.ne_of_lt (h.busy (.inr hpos)))
      rw [cell_zero h.consumer] at hc
      rw [hc]
      rfl
    · rw [if_neg hpos, if_neg hpos]

theorem buffer_turn (s : State) : s.turn.buffer = s.buffer := by
  funext i
  show (Function.update s.node s.producer _ i).buffer = (s.node i).buffer
  by_cases hi : i = s.producer
  · rw [hi, Function.update_self]
  · rw [Function.update_of_ne hi]

theorem status_turn (s : State) (i : Nat) :
    (s.turn.node i).status = if i = s.producer then .full else (s.node i).status := by
  show (Function.update s.node s.producer _ i).status = _
  by_cases hi : i = s.producer
  · rw [hi, Function.update_self, if_pos rfl]
  · rw [Function.update_of_ne hi, if_neg hi]

/-- The last free buffer may be the one that is turned to: then the ring is full. -/
theorem View.turn (h : View s full full written) (hfull : full < s.node_cnt) (hheld : 0 < (s.node s.producer).length) :
    ∃ o, View s.turn (full + 1) o written := by
  have hp : s.producer = cell s.node_cnt s.consumer full := h.producer
  have hnext : s.next s.producer = cell s.node_cnt s.consumer (full + 1) := by rw [hp]; exact cell_succ ..
  have hlen : ∀ i, (s.turn.node i).length = (s.node i).length := fun i => by
    rw [Node.length, Node.length]
    exact congrArg (fun f => (f i).flatten.length) (buffer_turn s)
  have hview : ∀ o, s.next s.producer = cell s.node_cnt s.consumer o →
      (o = full + 1 ∧ full + 1 < s.node_cnt ∨ o = 0 ∧ full + 1 = s.node_cnt) → View s.turn (full + 1) o written := by
    intro o ho hmode
    refine ⟨h.size, h.consumer, hfull, ?_, ho, ?_, fun _ => Nat.succ_pos _, ?_, ?_, ?_, ?_⟩
    · intro j hj
      show (s.turn.node (cell s.node_cnt s.consumer j)).status = _
      rw [status_turn]
      by_cases hjf : j = full
      · rw [hjf, if_pos hp.symm, if_pos (Nat.lt_succ_self _)]
      · rw [if_neg fun he => hjf ((cell_inj hj hfull).mp (he.trans hp)), h.status j hj]
        by_cases hlt : j < full
        · rw [if_pos hlt, if_pos (Nat.lt_succ_of_lt hlt)]
        · rw [if_neg hlt, if_neg (by omega)]
    · rcases hmode with hm | hm
      · exact .inl hm
      · exact .inr (.inl ⟨hm.1, Nat.succ_pos _, fun _ => hm.2⟩)
    · intro j hj hle hne
      rw [buffer_turn]
      exact h.empty j hj (Nat.le_of_succ_le hle) (by omega)
    · intro j hj
      show 0 < (s.turn.node (cell s.node_cnt s.consumer j)).length
      rw [hlen]
      rcases Nat.lt_or_eq_of_le (Nat.le_of_lt_succ hj) with hlt | rfl
      · exact h.held j hlt
      · rw [← hp]
        exact hheld
    · rw [buffer_turn]
      exact h.data
    · rw [buffer_turn]
      exact h.output
  rcases Nat.lt_or_eq_of_le (show full + 1 ≤ s.node_cnt from hfull) with hlt | heq
  · exact ⟨full + 1, hview _ hnext (.inl ⟨rfl, hlt⟩)⟩
  · refine ⟨0, hview _ ?_ (.inr ⟨rfl, heq⟩)⟩
    rw [hnext, heq, cell_size h.consumer, cell_zero h.consumer]

theorem View.discard (h : View s full o written) : View s.discard full o written := { h with }

theorem View.log (h : View s full o written) {data : Line} (hlen : data.length < bufferSize) :
    (∃ full o, View (s.log data) full o written) ∧
      ((s.log data).accepted = s.accepted ++ [data] ∧ (s.log data).notices = s.notices ∨
        (s.log data).accepted = s.accepted ∧ (s.log data).notices = s.notices + 1) := by
  unfold State.log
  by_cases hf : (s.node s.producer).status = .full
  · rw [if_pos hf]
    exact ⟨⟨full, o, h.discard⟩, .inr ⟨rfl, rfl⟩⟩
  · obtain ⟨rfl, hfull⟩ := h.free hf
    rw [if_neg hf]
    by_cases hfit : (s.node s.producer).avail > data.length
    · rw [if_pos hfit]
      exact ⟨⟨_, _, h.put hfull (Nat.le_of_lt hfit)⟩, .inl ⟨rfl, rfl⟩⟩
    · rw [if_neg hfit]
      have hheld : 0 < (s.node s.producer).length := by
        unfold Node.avail at hfit
        omega
      obtain ⟨o', ht⟩ := h.turn hfull hheld
      by_cases hf' : (s.turn.node s.turn.producer).status = .full
      · rw [if_pos hf']
        exact ⟨⟨_, _, ht.discard⟩, .inr ⟨rfl, rfl⟩⟩
      · obtain ⟨rfl, hfull'⟩ := ht.free hf'
        rw [if_neg hf']
        refine ⟨⟨_, _, ht.put hfull' ?_⟩, .inl ⟨rfl, rfl⟩⟩
        -- The next free buffer is empty.
        have hempty := h.empty _ hfull' (Nat.le_succ _) (Nat.succ_ne_self _)
        have hb : (s.turn.node s.turn.producer).buffer = [] := by
          rw [ht.producer]
          exact (congrFun (buffer_turn s) _).trans hempty
        rw [Node.avail, Node.length, hb]
        exact Nat.le_of_lt hlen

/-! ## What `dump` does -/

theorem View.status_consumer (h : View s full o written) :
    (s.node s.consumer).status = if 0 < full then .full else .free := by
  have hst := h.status 0 h.pos_size
  rwa [cell_zero h.consumer] at hst

theorem View.full_pos (h : View s full o written) (hf : (s.node s.consumer).status ≠ .free) : 0 < full := by
  refine Nat.pos_of_ne_zero fun h0 => hf ?_
  rw [h.status_consumer, h0]
  rfl

theorem View.full_zero (h : View s full o written) (hf : (s.node s.consumer).status = .free) : full = 0 ∧ o = 0 := by
  rw [h.status_consumer] at hf
  have h0 : full = 0 := by
    by_contra hne
    rw [if_pos (Nat.pos_of_ne_zero hne)] at hf
    cases hf
  rcases h.mode with ⟨ho, -⟩ | ⟨-, hpos, -⟩ | ⟨-, hpos, -⟩ <;> omega

theorem View.output_eq (h : View s full o written) (hpos : s.pos ≠ .clear) : s.output = written := by
  rw [h.output, if_neg hpos, List.append_nil]

/-- `dump` goes from one place to another outside the stretch in which it writes. -/
theorem View.move (h : View s full o written) {pos : At} (hw : ¬ s.writing) (hp : pos ≠ .write ∧ pos ≠ .clear) :
    View { s with pos } full o written := by
  have hw' : ¬ ({ s with pos } : State).writing := fun hw' => hw'.elim hp.1 hp.2
  refine ⟨h.size, h.consumer, h.full_le, h.status, h.producer, ?_, fun hb => absurd hb hw', h.empty, h.held, h.data, ?_⟩
  · rcases h.mode with hm | ⟨h0, hf, -⟩ | ⟨-, -, hm⟩
    · exact .inl hm
    · exact .inr (.inl ⟨h0, hf, fun hb => absurd hb hw'⟩)
    · exact absurd hm hw
  · rw [if_neg hp.2, List.append_nil]
    exact h.output_eq fun hc => hw (.inr hc)

theorem View.take (h : View s full o written) (hf : 0 < full) (hw : ¬ s.writing) : ∃ o, View s.take full o written := by
  have hview : ∀ o', s.take.producer = cell s.node_cnt s.consumer o' →
      (o' = full ∧ full < s.node_cnt ∨ o' = 1 ∧ 1 < full) → (∀ j, full ≤ j → j ≠ o' → j ≠ o) →
      View s.take full o' written := by
    intro o' hp hmode hne
    refine ⟨h.size, h.consumer, h.full_le, h.status, hp, ?_, fun _ => hf, ?_, h.held, h.data, ?_⟩
    · rcases hmode with hm | hm
      · exact .inl hm
      · exact .inr (.inr ⟨hm.1, hm.2, .inl rfl⟩)
    · exact fun j hj hle hjo => h.empty j hj hle (hne j hle hjo)
    · exact (h.output_eq fun hc => hw (.inr hc)).trans (List.append_nil _).symm
  have hsize := h.size
  have hiff : s.consumer = s.producer ↔ o = 0 := by
    have hc := cell_inj (c := s.consumer) h.pos_size h.o_lt
    rw [cell_zero h.consumer, ← h.producer] at hc
    exact hc.trans eq_comm
  by_cases ho : o = 0
  · have hp : s.take.producer = cell s.node_cnt s.consumer 1 := by
      show (if s.consumer = s.producer then s.next s.producer else s.producer) = _
      rw [if_pos (hiff.mpr ho), h.producer, ho]
      exact cell_succ ..
    refine ⟨1, hview 1 hp ?_ fun j hle _ => by omega⟩
    have hle := h.full_le
    omega
  · have hp : s.take.producer = cell s.node_cnt s.consumer o := by
      show (if s.consumer = s.producer then s.next s.producer else s.producer) = _
      rw [if_neg fun hc => ho (hiff.mp hc), h.producer]
    refine ⟨o, hview o hp ?_ fun j _ hjo => hjo⟩
    rcases h.mode with hm | hm | ⟨-, -, hm⟩
    · exact .inl hm
    · exact absurd hm.1 ho
    · exact absurd hm hw

/-- When `dump` declares the consumer's buffer full, so would `log`: the producer stands on it too. -/
theorem View.fill (h : View s 0 0 written) :
    (s.setNode s.consumer { s.node s.consumer with status := .full }).take = s.turn.take := by
  have hp : s.producer = s.consumer := h.producer.trans (cell_zero h.consumer)
  have hne : s.consumer ≠ s.next s.consumer := by
    intro he
    have h01 : cell s.node_cnt s.consumer 0 = cell s.node_cnt s.consumer 1 := (cell_zero h.consumer).trans he
    exact absurd ((cell_inj h.pos_size (Nat.lt_of_lt_of_le Nat.one_lt_two h.size)).mp h01) Nat.zero_ne_one
  unfold State.take State.turn setNode
  rw [hp, if_pos rfl]
  dsimp only
  rw [if_neg hne]
  rfl

theorem View.release (h : View s full o written) (hpos : s.pos = .clear) :
    ∃ o, View s.release (full - 1) o (written ++ s.buffer s.consumer) := by
  have hbusy := h.busy (.inr hpos)
  have hle := h.full_le
  have hlt := h.o_lt
  have hsize := h.pos_size
  have hcell : ∀ j, cell s.node_cnt (s.next s.consumer) j = cell s.node_cnt s.consumer (j + 1) :=
    fun j => cell_next ..
  have hlast : cell s.node_cnt (s.next s.consumer) (s.node_cnt - 1) = s.consumer := by
    rw [hcell, Nat.sub_add_cancel hsize, cell_size h.consumer]
  have hnode : ∀ j, j + 1 < s.node_cnt →
      s.release.node (cell s.node_cnt (s.next s.consumer) j) = s.node (cell s.node_cnt s.consumer (j + 1)) := by
    intro j hj
    rw [hcell]
    refine Function.update_of_ne (fun he => ?_) ..
    exact absurd ((cell_inj hj hsize).mp (he.trans (cell_zero h.consumer).symm)) (Nat.succ_ne_zero j)
  have hfreed : s.release.node s.consumer = { buffer := [], status := .free } := Function.update_self ..
  have hview : ∀ o', s.producer = cell s.node_cnt (s.next s.consumer) o' →
      (o' = full - 1 ∧ full - 1 < s.node_cnt ∨ o' = 0 ∧ 0 < full - 1) → (∀ j, full - 1 ≤ j → j ≠ o' → j + 1 ≠ o) →
      View s.release (full - 1) o' (written ++ s.buffer s.consumer) := by
    intro o' hp hmode hne
    have hw : ¬ s.release.writing := nofun
    refine ⟨h.size, Nat.mod_lt _ hsize, Nat.le_trans (Nat.sub_le ..) hle, ?_, hp, ?_, fun hb => absurd hb hw, ?_, ?_, ?_, ?_⟩
    · intro j hj
      show (s.release.node (cell s.node_cnt (s.next s.consumer) j)).status = _
      have hj : j < s.node_cnt := hj
      by_cases hj' : j + 1 < s.node_cnt
      · rw [hnode j hj', h.status _ hj']
        by_cases hf : j + 1 < full
        · rw [if_pos hf, if_pos (by omega)]
        · rw [if_neg hf, if_neg (by omega)]
      · rw [show j = s.node_cnt - 1 by omega, hlast, hfreed, if_neg (by omega)]
    · exact hmode.imp id fun hm => .inl ⟨hm.1, hm.2, fun hb => absurd hb hw⟩
    · intro j hj hfj hjo
      show (s.release.node (cell s.node_cnt (s.next s.consumer) j)).buffer = _
      have hj : j < s.node_cnt := hj
      by_cases hj' : j + 1 < s.node_cnt
      · rw [hnode j hj']
        exact h.empty _ hj' (by omega) (hne j hfj hjo)
      · rw [show j = s.node_cnt - 1 by omega, hlast, hfreed]
    · intro j hj
      show 0 < (s.release.node (cell s.node_cnt (s.next s.consumer) j)).length
      rw [hnode j (by omega)]
      exact h.held _ (by omega)
    · show _ ++ contents s.node_cnt s.release.buffer (s.next s.consumer) = s.accepted
      have hbuf : s.release.buffer = Function.update s.buffer s.consumer [] := buffer_setNode ..
      rw [hbuf, State.next, contents_next h.consumer, List.append_assoc, ← contents_eq h.consumer, h.data]
    · exact h.output.trans (by rw [if_pos hpos, if_neg nofun, List.append_nil])
  rcases h.mode with ⟨rfl, hm⟩ | ⟨rfl, -, hm⟩ | ⟨rfl, hm, -⟩
  · refine ⟨o - 1, hview _ ?_ (.inl ⟨rfl, by omega⟩) fun j _ hj => by omega⟩
    rw [hcell, Nat.sub_add_cancel hbusy]
    exact h.producer
  · refine ⟨s.node_cnt - 1, hview _ ?_ (.inl ⟨?_, by omega⟩) fun j _ _ => Nat.succ_ne_zero j⟩
    · rw [hlast, h.producer, cell_zero h.consumer]
    · rw [hm (.inr hpos)]
  · refine ⟨0, hview _ ?_ (.inr ⟨rfl, by omega⟩) fun j _ hj => by omega⟩
    rw [hcell]
    exact h.producer

theorem View.dump (h : View s full o written) : ∃ full o written, View s.dump full o written := by
  unfold State.dump
  cases hpos : s.pos with
  | loop =>
    have hw : ¬ s.writing := by simp [writing, hpos]
    refine ⟨full, o, written, h.move hw ?_⟩
    by_cases hr : s.run
    · simp [hr]
    · simp [hr]
  | enter =>
    have hw : ¬ s.writing := by simp [writing, hpos]
    dsimp only
    by_cases hf : (s.node s.consumer).status = .free
    · rw [if_pos hf]
      exact ⟨full, o, written, h.move hw ⟨nofun, nofun⟩⟩
    · rw [if_neg hf]
      obtain ⟨o', h'⟩ := h.take (h.full_pos hf) hw
      exact ⟨full, o', written, h'⟩
  | wait =>
    have hw : ¬ s.writing := by simp [writing, hpos]
    dsimp only
    by_cases hf : (s.node s.consumer).status = .free
    · obtain ⟨rfl, rfl⟩ := h.full_zero hf
      rw [if_pos hf]
      by_cases hlen : (s.node s.consumer).length > 0
      · have hp : s.producer = s.consumer := h.producer.trans (cell_zero h.consumer)
        obtain ⟨o', h'⟩ := h.turn h.pos_size (hp ▸ hlen)
        obtain ⟨o'', h''⟩ := h'.take Nat.one_pos hw
        rw [if_pos hlen, h.fill]
        exact ⟨1, o'', written, h''⟩
      · rw [if_neg hlen]
        exact ⟨0, 0, written, h.move hw ⟨nofun, nofun⟩⟩
    · rw [if_neg hf]
      obtain ⟨o', h'⟩ := h.take (h.full_pos hf) hw
      exact ⟨full, o', written, h'⟩
  | write =>
    refine ⟨full, o, written, h.size, h.consumer, h.full_le, h.status, h.producer, ?_, fun _ => h.busy (.inl hpos), h.empty,
      h.held, h.data, ?_⟩
    · exact h.mode.imp id fun hm => hm.imp (fun hm => ⟨hm.1, hm.2.1, fun _ => hm.2.2 (.inl hpos)⟩)
        fun hm => ⟨hm.1, hm.2.1, .inr rfl⟩
    · show s.output ++ s.buffer s.consumer = _
      rw [h.output_eq (by rw [hpos]; nofun), if_pos rfl]
      rfl
  | clear =>
    obtain ⟨o', h'⟩ := h.release hpos
    exact ⟨_, o', _, h'⟩
  | done => exact ⟨full, o, written, h⟩

end State

end GlobalServer.Logger
