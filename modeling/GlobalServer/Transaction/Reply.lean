import GlobalServer.Transaction.Frames

/-!
# The answer of a `TwoWayTransaction`

The answer is addressed by the original frame, which a transaction keeps a
copy of, but its number is read from the current frame. So it is the number
of the last frame the transaction took, as long as that frame's message is
not back in its pool.
-/

namespace GlobalServer

open Schedule (Runs Stops)

/-- A handler returns, and `frame` is sent for it. -/
def Event.Responds (e : Event) (p : Nat) (frame : AppHeadFrame) : Prop :=
  ∃ ret seen len fd, e = .co p (.onRequest ret seen len (some (fd, frame)))

namespace App

/-- The request that the transaction was made for. -/
def requestOf (t : List Event) (p : Nat) : Option AppHeadFrame :=
  t.foldl (fun r e => match e with
    | .dispatch _ frame target => if target = some p ∧ frame.dstTransId = 0 then some frame else r
    | _ => r) none

/-- The last frame that the transaction took. -/
def lastFrame (t : List Event) (p : Nat) : Option AppHeadFrame :=
  t.foldl (fun r e => if e.frame.isSome ∧ e.target = some p then e.frame else r) none

theorem requestOf_concat (t : List Event) (e : Event) (p : Nat) : requestOf (t ++ [e]) p = match e with
    | .dispatch _ frame target => if target = some p ∧ frame.dstTransId = 0 then some frame else requestOf t p
    | _ => requestOf t p := by
  simp [requestOf]

theorem lastFrame_concat (t : List Event) (e : Event) (p : Nat) :
    lastFrame (t ++ [e]) p = if e.frame.isSome ∧ e.target = some p then e.frame else lastFrame t p := by
  simp [lastFrame]

/-- `frame` is the answer to `req`. -/
structure Answers (req frame : AppHeadFrame) : Prop where
  dstZone : frame.dstZone = req.srcZone
  dstSvrType : frame.dstSvrType = req.srcSvrType
  dstInstId : frame.dstInstId = req.srcInstId
  dstTransId : frame.dstTransId = req.srcTransId
  cmd : frame.cmd = req.cmd + 1
  reqRandom : frame.reqRandom = req.reqRandom

/-- What a running transaction keeps of its frames. -/
structure FramesOk (t : List Event) (a : App) (p : Nat) : Prop where
  request : requestOf t p = some (a.trans p).oriFrame
  cmd : (a.trans p).cmd = (a.trans p).oriFrame.cmd
  last : ∃ m frame, (a.trans p).curFrame = some m ∧ lastFrame t p = some frame ∧
    ∀ frame', a.live.lookup m = some frame' → frame' = frame

section
variable {a a' : App} {e : Event} {p : Nat}

theorem made_effect (h : Sound a) (he : Effect a e a') {frame : AppHeadFrame} (hf : e.frame = some frame)
    (ht : e.target = some p) (hd : frame.dstTransId = 0) :
    ¬ a.Running p ∧ (a'.trans p).oriFrame = frame ∧ (a'.trans p).cmd = frame.cmd := by
  have hch := trans_effect h he p
  generalize a'.trans p = t at hch ⊢
  cases hch with
  | same hne hr => exact absurd ht hne
  | made hf' ht' hd' hp hcon htype =>
    obtain rfl := Option.some.inj (hf.symm.trans hf')
    exact ⟨hp, rfl, rfl⟩
  | answered hf' ht' hd' hp hr =>
    obtain rfl := Option.some.inj (hf.symm.trans hf')
    simp [hd] at hd'
  | sent hr hrand => simp [frame_of_reqRandomOf hr] at hf
  | _ => cases hf

theorem oriFrame_effect (h : Sound a) (he : Effect a e a') (hp : a.Running p) :
    (a'.trans p).oriFrame = (a.trans p).oriFrame ∧ (a'.trans p).cmd = (a.trans p).cmd := by
  have hch := trans_effect h he p
  generalize a'.trans p = t at hch ⊢
  cases hch with
  | made hf ht hd hn hcon htype => exact absurd hp hn
  | woke hw => cases hw <;> exact ⟨rfl, rfl⟩
  | _ => exact ⟨rfl, rfl⟩

theorem last_effect {t : List Event} (h : Sound a) (hm : a.MsgsOk) (he : Effect a e a')
    (hi : ¬ (e.frame.isSome ∧ e.target = some p) → FramesOk t a p) :
    ∃ m frame, (a'.trans p).curFrame = some m ∧ lastFrame (t ++ [e]) p = some frame ∧
      ∀ frame', a'.live.lookup m = some frame' → frame' = frame := by
  rw [curFrame_effect h he, lastFrame_concat]
  by_cases ht : e.frame.isSome ∧ e.target = some p
  · obtain ⟨frame, hf⟩ := Option.isSome_iff_exists.mp ht.1
    simp only [if_pos ht]
    refine ⟨_, frame, rfl, hf, fun frame' hl => ?_⟩
    rw [live_new he hf] at hl
    exact (Option.some.inj hl).symm
  · obtain ⟨m, frame, hc, hl, hlive⟩ := (hi ht).last
    simp only [if_neg ht]
    refine ⟨m, frame, hc, hl, fun frame' hl' => ?_⟩
    rcases live_back he hl' with hl' | ⟨rfl, -⟩
    · exact hlive frame' hl'
    · exact absurd (hm.curFrame p _ hc) (Nat.lt_irrefl _)

theorem framesOk_effect {t : List Event} (h : Sound a) (hm : a.MsgsOk) (hi : ∀ p, a.Running p → FramesOk t a p)
    (he : Effect a e a') : ∀ p, a'.Running p → FramesOk (t ++ [e]) a' p := by
  intro p hp
  rcases running_back h he hp with hr | ⟨hn, fd, frame, rfl, hd⟩
  · have hf := hi p hr
    obtain ⟨hori, hcmd⟩ := oriFrame_effect h he hr
    refine ⟨?_, by rw [hori, hcmd]; exact hf.cmd, last_effect h hm he fun _ => hf⟩
    rw [requestOf_concat, hori]
    cases e with
    | dispatch fd frame target =>
      simp only
      rw [if_neg]
      · exact hf.request
      · rintro ⟨rfl, hd⟩
        exact (made_effect h he rfl rfl hd).1 hr
    | _ => exact hf.request
  · obtain ⟨-, hori, hcmd⟩ := made_effect h he rfl rfl hd
    refine ⟨?_, by rw [hori, hcmd], last_effect h hm he fun hno => absurd ⟨rfl, rfl⟩ hno⟩
    simp [requestOf_concat, hd, hori]

end

theorem run_framesOk {C : List Event → App → Event → Prop} {c : Config} {t : List Event} {a : App} (h : Run C c t a) :
    ∀ p, a.Running p → FramesOk t a p := by
  have hb := run_invariant (fun t a => a.MsgsOk ∧ ∀ p, a.Running p → FramesOk t a p) ⟨init_msgsOk c, ?_⟩ ?_ h
  · exact hb.2
  · rintro p ⟨id, pc, hk⟩
    simp [init] at hk
  · rintro t a e a' hs ⟨hm, hi⟩ - he
    exact ⟨msgsOk_effect hs hm he, framesOk_effect hs hm hi he⟩

/-! ## What is sent -/

/-- The last frame the transaction took has the request's number, and its message is not back in its pool. -/
def HasRequestRandom (t : List Event) (a : App) (p : Nat) : Prop :=
  ∃ req frame m, requestOf t p = some req ∧ lastFrame t p = some frame ∧ frame.reqRandom = req.reqRandom ∧
    (a.trans p).curFrame = some m ∧ a.live.lookup m ≠ none

/-- Whatever is read and sent when the handler returns 0 now, the response is the answer to the request. -/
def AnswersNow (t : List Event) (a : App) (p : Nat) : Prop :=
  ∀ seen len fd frame a', a.step (.co p (.onRequest 0 seen len (some (fd, frame)))) = some a' →
    ∃ req, requestOf t p = some req ∧ Answers req frame

section
variable {t : List Event} {a a' : App} {p : Nat}

theorem reply_effect (h : Sound a) {ret : Int} {seen : Seen} {len : UInt32} {out : Int × AppHeadFrame}
    (hst : a.step (.co p (.onRequest ret seen len (some out))) = some a') : a.Running p ∧
      ∃ m cur, (a.trans p).curFrame = some m ∧ a.shows (.frame m cur) = true ∧
        a.router.sendMsg (respond (a.trans p) cur len) = some out := by
  cases step_effect h hst with
  | suspend hc hk ha hp hs => cases ha
  | exit hc hk he hb hs =>
    cases he with
    | reply ht hm hsh ho => exact ⟨⟨_, _, hk⟩, _, _, hm, hsh, ho.symm⟩

/-- All of the response but its number is made of the original frame. -/
theorem respond_answers (hf : FramesOk t a p) {cur : AppHeadFrame} {len : UInt32} {out : Int × AppHeadFrame}
    (ho : a.router.sendMsg (respond (a.trans p) cur len) = some out) :
    Answers (a.trans p).oriFrame out.2 ↔ cur.reqRandom = (a.trans p).oriFrame.reqRandom := by
  rw [RouterMgr.sendMsg_frame ho]
  constructor
  · intro ha
    exact ha.reqRandom
  · intro hr
    exact ⟨rfl, rfl, rfl, rfl, by simp [RouterMgr.sendMsgByFd, respond, hf.cmd], hr⟩

theorem HasRequestRandom.shown (hr : HasRequestRandom t a p) (hf : FramesOk t a p) {m : Nat} {cur : AppHeadFrame}
    (hm : (a.trans p).curFrame = some m) (hs : a.shows (.frame m cur) = true) :
    cur.reqRandom = (a.trans p).oriFrame.reqRandom := by
  obtain ⟨req, frame, m', hreq, hlast, hrand, hm', hlive⟩ := hr
  obtain ⟨m'', frame', hc, hl, hsame⟩ := hf.last
  obtain rfl : m = m' := Option.some.inj (hm.symm.trans hm')
  obtain rfl : m = m'' := Option.some.inj (hm.symm.trans hc)
  obtain rfl : frame = frame' := Option.some.inj (hlast.symm.trans hl)
  obtain ⟨cur', hcur⟩ := Option.ne_none_iff_exists'.mp hlive
  have he : cur = cur' := by simpa [shows, hcur] using hs
  rw [he, hsame cur' hcur, hrand, Option.some.inj (hreq.symm.trans hf.request)]

theorem answers_of_hasRequestRandom (h : Sound a) (hf : ∀ p, a.Running p → FramesOk t a p)
    (hr : HasRequestRandom t a p)
    {ret : Int} {seen : Seen} {len : UInt32} {fd : Int} {frame : AppHeadFrame}
    (hst : a.step (.co p (.onRequest ret seen len (some (fd, frame)))) = some a') :
    ∃ req, requestOf t p = some req ∧ Answers req frame := by
  obtain ⟨hrun, m, cur, hm, hs, ho⟩ := reply_effect h hst
  exact ⟨_, (hf p hrun).request, (respond_answers (hf p hrun) ho).mpr (hr.shown (hf p hrun) hm hs)⟩

/-- The handler can return and send a response made of any frame that its pointer may show. -/
theorem reply_step (hk : a.running = some ⟨p, .code []⟩) (ht : (a.trans p).twoWay = true) {m : Nat}
    {cur : AppHeadFrame}
    (hm : (a.trans p).curFrame = some m) (hs : a.shows (.frame m cur) = true) (hr : a.router.routerInfoVec ≠ []) :
    ∃ fd frame, a.router.sendMsg (respond (a.trans p) cur 0) = some (fd, frame) ∧
      a.step (.co p (.onRequest 0 (.frame m cur) 0 (some (fd, frame)))) = some (a.coroutineExit p) := by
  obtain ⟨⟨fd, frame⟩, ho⟩ := Option.ne_none_iff_exists'.mp fun hn => hr (RouterMgr.sendMsg_eq_none.mp hn)
  exact ⟨fd, frame, ho, by simp [step, hk, act, onRequest, ht, curFrame, hm, hs, ho]⟩

theorem answersNow_iff (h : Sound a) (hf : ∀ p, a.Running p → FramesOk t a p) (hk : a.running = some ⟨p, .code []⟩)
    (ht : (a.trans p).twoWay = true) : AnswersNow t a p ↔ a.router.routerInfoVec = [] ∨ HasRequestRandom t a p := by
  have hrun : a.Running p := running_Running hk
  constructor
  · intro ha
    by_cases hr : a.router.routerInfoVec = []
    · exact Or.inl hr
    · obtain ⟨m, frame, hm, hl, hsame⟩ := (hf p hrun).last
      have hshown : ∀ cur, a.shows (.frame m cur) = true → cur.reqRandom = (a.trans p).oriFrame.reqRandom := by
        intro cur hs
        obtain ⟨fd, frame, ho, hst⟩ := reply_step hk ht hm hs hr
        obtain ⟨req, hreq, hans⟩ := ha _ _ _ _ _ hst
        obtain rfl := Option.some.inj (hreq.symm.trans (hf p hrun).request)
        exact (respond_answers (hf p hrun) ho).mp hans
      cases hlive : a.live.lookup m with
      | none =>
        -- anything can be where the message was
        have := hshown { reqRandom := (a.trans p).oriFrame.reqRandom + 1 } (by simp [shows, hlive])
        simp at this
      | some cur =>
        have hcur := hshown cur (by simp [shows, hlive])
        rw [hsame cur hlive] at hcur
        exact Or.inr ⟨_, frame, m, (hf p hrun).request, hl, hcur, hm, by simp [hlive]⟩
  · rintro (hr | hr) seen len fd frame a' hst
    · obtain ⟨-, m, cur, -, -, ho⟩ := reply_effect h hst
      simp [RouterMgr.sendMsg_eq_none.mpr hr] at ho
    · exact answers_of_hasRequestRandom h hf hr hst

end

section
variable {c : Config} {t : List Event} {a : App}

/-- As long as a response is only sent when the last frame taken has the request's number and is not recycled, every
response is the answer to its request; and where this does not hold a response can be sent that is not. -/
theorem replies_answer (h : Run (fun t a e => ∀ p frame, Event.Responds e p frame → HasRequestRandom t a p) c t a) :
    (∀ t₁ e t₂ p frame, t = t₁ ++ e :: t₂ → Event.Responds e p frame → ∃ req, requestOf t₁ p = some req ∧
    Answers req frame) ∧
      ∀ p, a.running = some ⟨p, .code []⟩ → (a.trans p).twoWay = true →
        (AnswersNow t a p ↔ a.router.routerInfoVec = [] ∨ HasRequestRandom t a p) := by
  constructor
  · intro t₁ e t₂ p frame ht hr
    obtain ⟨a₁, a₂, h₁, hc, hst⟩ := h.event t₁ e t₂ ht
    have hhas := hc p frame hr
    obtain ⟨ret, seen, len, fd, rfl⟩ := hr
    exact answers_of_hasRequestRandom (run_sound h₁) (run_framesOk h₁) hhas hst
  · intro p hk ht
    exact answersNow_iff (run_sound h) (run_framesOk h) hk ht

end

/-- A request is taken, and at once answered by `requestAnswered`. -/
def requestTaken : List Event :=
  [.dispatch 3 { cmd := 8, reqRandom := 77 } (some 0), .co 0 (.parseMsg (.frame 0 { cmd := 8, reqRandom := 77 }) true)]

def requestAnswered : Event :=
  .co 0 (.onRequest 0 (.frame 0 { cmd := 8, reqRandom := 77 }) 0
    (some (9, { srcZone := 1, srcSvrType := 1, srcInstId := 1, srcTransId := 1, cmd := 9, reqRandom := 77 })))

theorem replies_answer_one : ∃ a, (init smallConfig).replay (requestTaken ++ [requestAnswered]) = some a ∧
    ∀ t₁ e t₂ p frame, requestTaken ++ [requestAnswered] = t₁ ++ e :: t₂ → Event.Responds e p frame →
      ∃ req, requestOf t₁ p = some req ∧ Answers req frame := by
  have h : ((init smallConfig).replay requestTaken).map (fun a =>
      ((a.trans 0).curFrame, a.live.lookup 0, (a.step requestAnswered).isSome)) =
      some (some 0, some { cmd := 8, reqRandom := 77 }, true) := by decide
  obtain ⟨a, hr, h⟩ := Option.map_eq_some_iff.mp h
  simp only [Prod.mk.injEq] at h
  obtain ⟨hc, hl, hs⟩ := h
  obtain ⟨a', hs⟩ := Option.isSome_iff_exists.mp hs
  have hrun : Run (fun t a e => ∀ p frame, Event.Responds e p frame → HasRequestRandom t a p) smallConfig
      ([] ++ requestTaken) a := by
    refine replay_run ?_ .nil hr
    intro e he u b p frame hres
    obtain ⟨ret, seen, len, fd, rfl⟩ := hres
    simp [requestTaken] at he
  refine ⟨a', by simp [replay_concat, hr, hs], (replies_answer (.snoc hrun ?_ hs)).1⟩
  rintro p frame ⟨ret, seen, len, fd, hres⟩
  cases hres
  exact ⟨_, _, 0, rfl, rfl, rfl, hc, by simp [hl]⟩

/-- A handler asks another server, whose answer is taken, and then its own response is sent. -/
def answeredByFrame : List Event :=
  [.dispatch 3 { cmd := 8, reqRandom := 77 } (some 0), .co 0 (.parseMsg (.frame 0 { cmd := 8, reqRandom := 77 }) true),
    .co 0 (.callMsg 20 2 0 0 10000
      (9, { srcZone := 1, srcSvrType := 1, dstSvrType := 2, srcInstId := 1, srcTransId := 1, cmd := 20, reqRandom := 10000 }) 0),
    .dispatched, .dispatch 3 { cmd := 21, dstTransId := 1, reqRandom := 10000 } (some 0),
    .co 0 (.woke .active (.frame 1 { cmd := 21, dstTransId := 1, reqRandom := 10000 }))]

/-- The response has the number of the handler's own request. -/
theorem reply_random : ∃ t a, Run (fun _ _ _ => True) smallConfig t a ∧
    ¬ ∀ t₁ e t₂ p frame, t = t₁ ++ e :: t₂ → Event.Responds e p frame →
      ∃ req, requestOf t₁ p = some req ∧ Answers req frame := by
  obtain ⟨a, ha⟩ : ∃ a, (init smallConfig).replay (answeredByFrame ++
        [.co 0 (.onRequest 0 (.frame 1 { cmd := 21, dstTransId := 1, reqRandom := 10000 }) 0
          (some (9, { srcZone := 1, srcSvrType := 1, srcInstId := 1, srcTransId := 1, cmd := 9, reqRandom := 10000 })))]) =
      some a := Option.isSome_iff_exists.mp (by decide)
  refine ⟨_, a, replay_run (fun _ _ _ _ => trivial) .nil ha, fun hall => ?_⟩
  obtain ⟨req, hreq, hans⟩ := hall answeredByFrame _ [] 0 _ rfl ⟨_, _, _, _, rfl⟩
  obtain rfl : { cmd := 8, reqRandom := 77 } = req := Option.some.inj hreq
  exact absurd hans.reqRandom (by decide)

end App

end GlobalServer
