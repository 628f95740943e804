import GlobalServer.Socket.EpollAccess

/-!
# What epoll watches

Once a socket is connected, `_type` and what is registered with epoll say which
of the two operations wait, and the records of these are as they were posted,
as long as nothing is posted twice and nothing waits when a connect completes.
-/

namespace GlobalServer.Epoll.Socket

variable {κ ρ : Type}

/-- What is registered is what waits; but a connect that waits on a new socket has its own event. -/
structure Sound (s : Socket κ ρ) : Prop where
  reads : s.readFlag = s.pendingRead.isSome
  writes : s.writeFlag = s.pendingWrite.isSome
  rop : s.rop = s.pendingRead
  wop : s.wop = s.pendingWrite
  cop : s.connectFlag = s.cop.isSome
  bind : s.bindFlag = s.mask.isSome
  type : s.type = ⟨true, false, false⟩ ∧ s.connectFlag = true ∨ s.type = ⟨false, s.readFlag, s.writeFlag⟩
  unbound : s.mask = none → s.readFlag = false ∧ s.writeFlag = false ∧ s.reported = []
  mask : ∀ m, s.mask = some m →
    m.input = s.readFlag ∧ m.output = s.writeFlag ∧ (m.oneshot = true → s.readFlag = false ∧ s.writeFlag = false) ∨
      m = ⟨false, true, true⟩ ∧ s.type.connect = true ∧ s.readFlag = false ∧ s.writeFlag = false ∧ s.reported = []

theorem sound_init : Sound (init : Socket κ ρ) where
  reads := rfl
  writes := rfl
  rop := rfl
  wop := rfl
  cop := rfl
  bind := rfl
  type := .inr rfl
  unbound := fun _ => ⟨rfl, rfl, rfl⟩
  mask := nofun

/-- What is promised of every state: when no connect waits, `_type` and the mask have a read, and a write, exactly when
one waits, and the records of these are those that were posted. -/
structure Correct (s : Socket κ ρ) : Prop where
  type : s.connectFlag = false → s.type.read = s.pendingRead.isSome ∧ s.type.write = s.pendingWrite.isSome
  mask : s.connectFlag = false →
    s.mask.any Mask.input = s.pendingRead.isSome ∧ s.mask.any Mask.output = s.pendingWrite.isSome
  rop : ∀ op, s.pendingRead = some op → s.rop = some op
  wop : ∀ op, s.pendingWrite = some op → s.wop = some op

/-- Nothing is posted while the like of it waits, and nothing waits when a connect completes. -/
def Allowed (s : Socket κ ρ) : Op κ ρ → Prop
  | .asyncRecvSome _ => s.pendingRead = none
  | .asyncSendSome _ => s.pendingWrite = none
  | .execOp event => event ∈ s.reported → s.type.connect = true → s.pendingRead = none ∧ s.pendingWrite = none
  | _ => True

/-- The step can be taken, and leaves a state as promised. -/
def Good (s : Option (Socket κ ρ)) : Prop := ∃ t, s = some t ∧ Correct t

variable {s : Socket κ ρ}

theorem Sound.correct (h : Sound s) : Correct s where
  type hc := by
    rcases h.type with ⟨-, ht⟩ | ht
    · rw [hc] at ht
      cases ht
    · rw [ht, ← h.reads, ← h.writes]
      exact ⟨rfl, rfl⟩
  mask hc := by
    rw [← h.reads, ← h.writes]
    cases hm : s.mask with
    | none =>
      obtain ⟨hr, hw, -⟩ := h.unbound hm
      rw [hr, hw]
      exact ⟨rfl, rfl⟩
    | some m =>
      rcases h.mask m hm with ⟨hi, ho, -⟩ | ⟨-, htc, -⟩
      · exact ⟨hi, ho⟩
      · rcases h.type with ⟨-, ht⟩ | ht
        · rw [hc] at ht
          cases ht
        · rw [ht] at htc
          cases htc
  rop op hop := h.rop.trans hop
  wop op hop := h.wop.trans hop

theorem Sound.read_none (h : Sound s) : s.pendingRead = none ↔ s.readFlag = false := by
  rw [h.reads, Option.isSome_eq_false_iff, Option.isNone_iff_eq_none]

theorem Sound.write_none (h : Sound s) : s.pendingWrite = none ↔ s.writeFlag = false := by
  rw [h.writes, Option.isSome_eq_false_iff, Option.isNone_iff_eq_none]

/-! ## Steps -/

theorem ctlEpoll_eq (add : Bool) (m : Mask) (h : s.mask.isNone = add) :
    s.ctlEpoll add m = some { s with mask := some m } := if_pos h

theorem Sound.asyncConnect (h : Sound s) (handler : κ) : ∃ t, s.asyncConnect handler = some t ∧ Sound t := by
  unfold Socket.asyncConnect
  by_cases hc : s.connectFlag = true
  · rw [if_pos hc]
    exact ⟨s, rfl, h⟩
  · have hold : ¬ s.type.connect = true := by
      rcases h.type with ⟨-, ht⟩ | ht
      · exact absurd ht hc
      · rw [ht]
        nofun
    rw [if_neg hc]
    dsimp only
    by_cases hb : s.bindFlag = true
    · rw [if_pos hb]
      refine ⟨_, rfl, h.reads, h.writes, h.rop, h.wop, rfl, h.bind, .inl ⟨rfl, rfl⟩, h.unbound, fun m hm => .inl ?_⟩
      exact (h.mask m hm).resolve_right fun hn => hold hn.2.1
    · have hm : s.mask = none := by
        rw [h.bind] at hb
        simpa using hb
      obtain ⟨hr, hw, hrep⟩ := h.unbound hm
      rw [if_neg hb, ctlEpoll_eq _ _ (by rw [hm]; rfl)]
      refine ⟨_, rfl, h.reads, h.writes, h.rop, h.wop, rfl, rfl, .inl ⟨rfl, rfl⟩, nofun, fun m hm' => .inr ?_⟩
      cases hm'
      exact ⟨rfl, rfl, hr, hw, hrep⟩

theorem Sound.asyncRecvSome (h : Sound s) (op : ρ) (hn : s.pendingRead = none) :
    ∃ t, s.asyncRecvSome op = some t ∧ Sound t := by
  have hr := h.read_none.mp hn
  unfold Socket.asyncRecvSome
  dsimp only
  rw [hr, if_neg nofun, ctlEpoll_eq _ _ (by rw [h.bind]; cases s.mask <;> rfl)]
  refine ⟨_, rfl, rfl, h.writes, rfl, h.wop, h.cop, rfl, .inr rfl, nofun, fun m hm => .inl ?_⟩
  cases hm
  exact ⟨rfl, rfl, nofun⟩

theorem Sound.asyncSendSome (h : Sound s) (op : ρ) (hn : s.pendingWrite = none) :
    ∃ t, s.asyncSendSome op = some t ∧ Sound t := by
  have hw := h.write_none.mp hn
  unfold Socket.asyncSendSome
  dsimp only
  rw [hw, if_neg nofun, ctlEpoll_eq _ _ (by rw [h.bind]; cases s.mask <;> rfl)]
  refine ⟨_, rfl, h.reads, rfl, h.rop, rfl, h.cop, rfl, .inr rfl, nofun, fun m hm => .inl ?_⟩
  cases hm
  exact ⟨rfl, rfl, nofun⟩

theorem Sound.epollWait (h : Sound s) (event : Event) : Sound (s.epollWait event) := by
  unfold Socket.epollWait
  cases hm : s.mask with
  | none => exact h
  | some m =>
    dsimp only
    by_cases hrep : Mask.reports m event = true
    · rw [if_pos hrep]
      refine ⟨h.reads, h.writes, h.rop, h.wop, h.cop, ?_, h.type, nofun, fun m' hm' => .inl ?_⟩
      · rw [h.bind, hm]
        rfl
      · cases hm'
        rcases h.mask m hm with ⟨hi, ho, hone⟩ | ⟨rfl, -, hr, hw, -⟩
        · by_cases hos : m.oneshot = true
          · -- A `oneshot` that has been used reports nothing.
            obtain ⟨hr, hw⟩ := hone hos
            rw [hr] at hi
            rw [hw] at ho
            simp [Mask.reports, hi, ho, hos] at hrep
          · rw [if_neg hos]
            exact ⟨hi, ho, hone⟩
        · exact ⟨hr.symm, hw.symm, fun _ => ⟨hr, hw⟩⟩
    · rw [if_neg hrep]
      exact h

theorem Sound.waiting (h : Sound s) (hop : s.type.read = true ∨ s.type.write = true) :
    s.type = ⟨false, s.readFlag, s.writeFlag⟩ ∧ s.mask.isNone = false := by
  have ht : s.type = ⟨false, s.readFlag, s.writeFlag⟩ := by
    refine h.type.resolve_left fun ht => ?_
    rw [ht.1] at hop
    exact hop.elim nofun nofun
  refine ⟨ht, ?_⟩
  cases hm : s.mask with
  | some m => rfl
  | none =>
    obtain ⟨hr, hw, -⟩ := h.unbound hm
    rw [ht, hr, hw] at hop
    exact hop.elim nofun nofun

theorem Sound.completeWrite (h : Sound s) (hw : s.type.write = true) : ∃ t, s.completeWrite = some t ∧ Sound t := by
  obtain ⟨ht, hm⟩ := h.waiting (.inr hw)
  have hf : s.writeFlag = true := by rwa [ht] at hw
  obtain ⟨op, hop⟩ : ∃ op, s.wop = some op := by
    rw [h.wop]
    exact Option.isSome_iff_exists.mp (h.writes.symm.trans hf)
  simp only [Socket.completeWrite, hop, Option.bind_eq_bind, Option.bind_some]
  rw [ctlEpoll_eq _ _ (by exact hm)]
  refine ⟨_, rfl, h.reads, rfl, h.rop, rfl, h.cop, ?_, .inr ?_, nofun, fun m hm => .inl ?_⟩
  · rw [h.bind, ← Option.not_isNone, hm]
    rfl
  · rw [ht]
  · cases hm
    rw [ht]
    exact ⟨rfl, rfl, nofun⟩

theorem Sound.completeRead (h : Sound s) (hr : s.type.read = true) : ∃ t, s.completeRead = some t ∧ Sound t := by
  obtain ⟨ht, hm⟩ := h.waiting (.inl hr)
  have hf : s.readFlag = true := by rwa [ht] at hr
  obtain ⟨op, hop⟩ : ∃ op, s.rop = some op := by
    rw [h.rop]
    exact Option.isSome_iff_exists.mp (h.reads.symm.trans hf)
  simp only [Socket.completeRead, hop, Option.bind_eq_bind, Option.bind_some]
  rw [ctlEpoll_eq _ _ (by exact hm)]
  refine ⟨_, rfl, rfl, h.writes, rfl, h.wop, h.cop, ?_, .inr ?_, nofun, fun m hm => .inl ?_⟩
  · rw [h.bind, ← Option.not_isNone, hm]
    rfl
  · rw [ht]
  · cases hm
    rw [ht]
    exact ⟨rfl, rfl, nofun⟩

theorem Sound.execWrite (h : Sound s) (event : Event) : ∃ t, s.execWrite event = some t ∧ Sound t := by
  unfold Socket.execWrite
  by_cases hc : (s.type.write && (event.output || event.err || event.hup)) = true
  · rw [if_pos hc]
    exact h.completeWrite (Bool.and_eq_true_iff.mp hc).1
  · rw [if_neg hc]
    exact ⟨s, rfl, h⟩

theorem Sound.completeConnect (h : Sound s) (hc : s.type.connect = true)
    (hm : ∀ m, s.mask = some m → m.input = s.readFlag ∧ m.output = s.writeFlag) :
    ∃ t, s.completeConnect = some t ∧
      ((s.pendingRead = none ∧ s.pendingWrite = none) ∧ Sound t ∨
        ¬ (s.pendingRead = none ∧ s.pendingWrite = none) ∧ ¬ Correct t) := by
  obtain ⟨ht, hf⟩ : s.type = ⟨true, false, false⟩ ∧ s.connectFlag = true := by
    refine h.type.resolve_right fun ht => ?_
    rw [ht] at hc
    cases hc
  obtain ⟨handler, hcop⟩ := Option.isSome_iff_exists.mp (h.cop.symm.trans hf)
  simp only [Socket.completeConnect, hcop, Option.bind_eq_bind, Option.bind_some]
  refine ⟨_, rfl, ?_⟩
  by_cases hn : s.pendingRead = none ∧ s.pendingWrite = none
  · left
    have hr := h.read_none.mp hn.1
    have hw := h.write_none.mp hn.2
    refine ⟨hn, h.reads, h.writes, h.rop, h.wop, rfl, h.bind, .inr ?_, h.unbound, fun m hm' => .inl ?_⟩
    · rw [ht, hr, hw]
    · exact ⟨(hm m hm').1, (hm m hm').2, fun _ => ⟨hr, hw⟩⟩
  · -- The operations that waited have gone out of `_type`.
    right
    refine ⟨hn, fun hcorrect => hn ?_⟩
    obtain ⟨hr, hw⟩ := hcorrect.type rfl
    dsimp only at hr hw
    rw [ht] at hr hw
    exact ⟨Option.isNone_iff_eq_none.mp (Option.isSome_eq_false_iff.mp hr.symm),
      Option.isNone_iff_eq_none.mp (Option.isSome_eq_false_iff.mp hw.symm)⟩

/-- A state is as promised after a step exactly when the step is allowed, and then it is sound. -/
theorem step_cases (h : Sound s) (e : Op κ ρ) :
    (Allowed s e ∧ ∃ t, s.step e = some t ∧ Sound t) ∨ ¬ Allowed s e ∧ ¬ Good (s.step e) := by
  cases e with
  | asyncConnect handler => exact .inl ⟨trivial, h.asyncConnect handler⟩
  | asyncRecvSome op =>
    by_cases hn : s.pendingRead = none
    · exact .inl ⟨hn, h.asyncRecvSome op hn⟩
    · right
      refine ⟨hn, fun ⟨t, ht, hgood⟩ => ?_⟩
      obtain ⟨old, hold⟩ := Option.ne_none_iff_exists'.mp hn
      have hf : s.readFlag = true := by rw [h.reads, hold]; rfl
      have he : s.step (.asyncRecvSome op) = some { s with rop := none } := if_pos hf
      rw [he] at ht
      cases ht
      cases hgood.rop old hold
  | asyncSendSome op =>
    by_cases hn : s.pendingWrite = none
    · exact .inl ⟨hn, h.asyncSendSome op hn⟩
    · right
      refine ⟨hn, fun ⟨t, ht, hgood⟩ => ?_⟩
      obtain ⟨old, hold⟩ := Option.ne_none_iff_exists'.mp hn
      have hf : s.writeFlag = true := by rw [h.writes, hold]; rfl
      have he : s.step (.asyncSendSome op) = some { s with wop := none } := if_pos hf
      rw [he] at ht
      cases ht
      cases hgood.wop old hold
  | epollWait event => exact .inl ⟨trivial, _, rfl, h.epollWait event⟩
  | execOp event =>
    by_cases hrep : event ∈ s.reported
    · have hm : ∀ m, s.mask = some m → m.input = s.readFlag ∧ m.output = s.writeFlag ∧
          (m.oneshot = true → s.readFlag = false ∧ s.writeFlag = false) := by
        intro m hm
        refine (h.mask m hm).resolve_right fun hn => ?_
        rw [hn.2.2.2.2] at hrep
        cases hrep
      have h' : Sound { s with reported := s.reported.erase event } := by
        refine ⟨h.reads, h.writes, h.rop, h.wop, h.cop, h.bind, h.type, fun hn => ?_, fun m hm' => .inl (hm m hm')⟩
        obtain ⟨hr, hw, he⟩ := h.unbound hn
        exact ⟨hr, hw, by rw [he]; rfl⟩
      have hst : s.step (.execOp event) = { s with reported := s.reported.erase event }.execOp event := if_pos hrep
      rw [hst]
      unfold Socket.execOp
      by_cases hc : s.type.connect = true
      · rw [if_pos hc]
        obtain ⟨t, he, hs⟩ := h'.completeConnect hc fun m hm' => ⟨(hm m hm').1, (hm m hm').2.1⟩
        rw [he]
        rcases hs with ⟨hn, hs⟩ | ⟨hn, hs⟩
        · exact .inl ⟨fun _ _ => hn, t, rfl, hs⟩
        · refine .inr ⟨fun ha => hn (ha hrep hc), fun ⟨u, hu, hgood⟩ => ?_⟩
          cases hu
          exact hs hgood
      · rw [if_neg hc]
        refine .inl ⟨fun _ hc' => absurd hc' hc, ?_⟩
        by_cases hr : (s.type.read && (event.input || event.err || event.hup)) = true
        · obtain ⟨t, he, hs⟩ := h'.completeRead (Bool.and_eq_true_iff.mp hr).1
          rw [if_pos hr, he]
          exact ⟨_, rfl, { hs with }⟩
        · rw [if_neg hr]
          exact h'.execWrite event
    · exact .inl ⟨fun hm => absurd hm hrep, s, if_neg hrep, h⟩
  | readReturns event =>
    left
    refine ⟨trivial, ?_⟩
    by_cases hin : event ∈ s.inRead
    · have h' : Sound { s with inRead := s.inRead.erase event } := { h with }
      have hst : s.step (.readReturns event) = { s with inRead := s.inRead.erase event }.execWrite event := if_pos hin
      rw [hst]
      exact h'.execWrite event
    · exact ⟨s, if_neg hin, h⟩

def stepFrom (s : Option (Socket κ ρ)) (e : Op κ ρ) : Option (Socket κ ρ) := s.bind fun s => s.step e

def run (ops : List (Op κ ρ)) : Option (Socket κ ρ) := ops.foldl stepFrom (some init)

/-- After every step of a run the socket is as promised exactly when all its steps are allowed. -/
theorem interest_iff (ops : List (Op κ ρ)) :
    (∀ t e, t ++ [e] <+: ops → Good (run (t ++ [e]))) ↔
      ∀ t e, t ++ [e] <+: ops → ∀ s, run t = some s → Allowed s e := by
  apply Runs.good_foldl_iff (I := Sound)
  · exact sound_init
  · exact fun s h => ⟨s, rfl, h.correct⟩
  · exact fun s e h => step_cases h e

/-- The second read is refused, and the record of the first is gone. -/
theorem second_read_clears :
    (∃ s : Socket Nat Nat,
      run [.asyncRecvSome 1, .asyncRecvSome 2] = some s ∧ s.pendingRead = some 1 ∧ s.rop = none) ∧
      ¬ Good (run [.asyncRecvSome 1, .asyncRecvSome 2] : Option (Socket Nat Nat)) := by
  have hrun : (run [.asyncRecvSome 1, .asyncRecvSome 2] : Option (Socket Nat Nat)).map (fun s => (s.pendingRead, s.rop)) =
      some (some 1, none) := rfl
  obtain ⟨s, hs, he⟩ := Option.map_eq_some_iff.mp hrun
  obtain ⟨hp, hr⟩ : s.pendingRead = some 1 ∧ s.rop = none := Prod.ext_iff.mp he
  refine ⟨⟨s, hs, hp, hr⟩, fun ⟨t, ht, hgood⟩ => ?_⟩
  rw [hs] at ht
  cases ht
  have hrop := hgood.rop 1 hp
  rw [hr] at hrop
  cases hrop

end GlobalServer.Epoll.Socket
