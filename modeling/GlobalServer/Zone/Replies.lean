import GlobalServer.Zone.Routing

/-!
# Replies over the routers

What a handler returns is addressed to the type and the instance that its
request came from, and told to the transaction that the request was sent with.
Servers send in their own name only, so when their keys differ the answer
comes to the one that asked, for the transaction that asked.
-/

namespace GlobalServer.Zone

open App Bytes

variable {ι κ : Type} {c : ι → App.Config} {z : Zone ι κ}

/-- The transaction `q` was made for the request `req`, which came with `x`. -/
def MadeFor (t : List Entry) (q : Nat) (x : Entry) (req : AppHeadFrame) : Prop :=
  ∃ u v fd, t = u ++ x :: v ∧ x.event = .dispatch fd req (some q) ∧ req.dstTransId = 0 ∧
    requestOf (v.map Entry.event) q = none

theorem requestOf_concat_of_not {t : List Event} {e : Event} {q : Nat}
    (hn : ¬ ∃ fd frame, e = .dispatch fd frame (some q) ∧ frame.dstTransId = 0) : requestOf (t ++ [e]) q = requestOf t q := by
  rw [requestOf_concat]
  cases e with
  | dispatch fd frame target =>
    simp only
    rw [if_neg]
    rintro ⟨rfl, hd⟩
    exact hn ⟨fd, frame, rfl, hd⟩
  | _ => rfl

theorem madeFor_of_requestOf {t : List Entry} {q : Nat} {req : AppHeadFrame}
    (h : requestOf (t.map Entry.event) q = some req) : ∃ x, MadeFor t q x req := by
  induction t using List.reverseRecOn with
  | nil => cases h
  | append_singleton t y ih =>
    rw [List.map_append, List.map_singleton] at h
    by_cases hb : ∃ fd frame, y.event = .dispatch fd frame (some q) ∧ frame.dstTransId = 0
    · obtain ⟨fd, frame, hy, hd⟩ := hb
      rw [requestOf_concat, hy] at h
      simp only [true_and, if_pos hd] at h
      obtain rfl := Option.some.inj h
      exact ⟨y, t, [], fd, rfl, hy, hd, rfl⟩
    · rw [requestOf_concat_of_not hb] at h
      obtain ⟨x, u, v, fd, rfl, hx, hd, hv⟩ := ih h
      refine ⟨x, u, v ++ [y], fd, by simp, hx, hd, ?_⟩
      rw [List.map_append, List.map_singleton, requestOf_concat_of_not hb]
      exact hv

theorem MadeFor.mem {t : List Entry} {q : Nat} {x : Entry} {req : AppHeadFrame} (h : MadeFor t q x req) : x ∈ t := by
  obtain ⟨u, v, -, rfl, -⟩ := h
  simp

/-- The server `i` has sent the message while a transaction `q` with the source id of the message was running. -/
def Asks (c : ι → App.Config) (z : Zone ι κ) (i : ι) (p : Packet) : Prop :=
  ∃ u y v a q, z.trace i = u ++ y :: v ∧ y.gave = some p ∧
    App.Run (fun _ _ _ => True) (c i) (u.map Entry.event) a ∧ a.Running q ∧ p.frame.srcTransId = (a.trans q).transId

/-- The handler of a transaction of `i` that was made for `req` returned, and the message is what was sent for it. It has
the number of the request when that of the last frame taken is the same and the frame still there. -/
def Returned (c : ι → App.Config) (z : Zone ι κ) (i : ι) (p : Packet) (x : Entry) (req : AppHeadFrame) : Prop :=
  ∃ u y v q, z.trace i = u ++ y :: v ∧ y.gave = some p ∧ y.event.Responds q p.frame ∧ MadeFor u q x req ∧
    Answers { req with reqRandom := p.frame.reqRandom } p.frame ∧
    ∀ a, App.Run (fun _ _ _ => True) (c i) (u.map Entry.event) a → HasRequestRandom (u.map Entry.event) a q → Answers req p.frame

theorem Inv.asks (h : Inv c z) {i : ι} {p : Packet} (hg : Gave z.trace i p) : Asks c z i p := by
  obtain ⟨u, y, v, a, a', fd, ht, hp, ho, hr, hst⟩ := h.gave_step hg
  rcases out_cases (run_sound hr) hst ho with ⟨q, msg, hq, -, hsrc, hs⟩ | ⟨q, cur, len, hq, -, hs⟩
  · have hf : p.frame = _ := RouterMgr.sendMsg_frame hs
    exact ⟨u, y, v, a, q, ht, hp, hr, hq, by rw [hf]; exact hsrc⟩
  · have hf : p.frame = _ := RouterMgr.sendMsg_frame hs
    exact ⟨u, y, v, a, q, ht, hp, hr, hq, by rw [hf]; rfl⟩

theorem Inv.returned (h : Inv c z) {i : ι} {p : Packet} (hg : Gave z.trace i p) (hd : p.frame.dstTransId ≠ 0) :
    ∃ x req, x ∈ z.trace i ∧ Returned c z i p x req := by
  obtain ⟨u, y, v, a, a', fd, ht, hp, ho, hr, hst⟩ := h.gave_step hg
  rcases out_cases (run_sound hr) hst ho with ⟨q, msg, -, hdst, -, hs⟩ | ⟨q, cur, len, hq, hres, hs⟩
  · have hf : p.frame = _ := RouterMgr.sendMsg_frame hs
    rw [hf] at hd
    exact absurd hdst hd
  · have hf := run_framesOk hr q hq
    obtain ⟨x, hx⟩ := madeFor_of_requestOf hf.request
    have hfr : p.frame = _ := RouterMgr.sendMsg_frame hs
    have hans : Answers { (a.trans q).oriFrame with reqRandom := p.frame.reqRandom } p.frame := by
      rw [hfr]
      exact ⟨rfl, rfl, rfl, rfl, by simp [RouterMgr.sendMsgByFd, respond, hf.cmd], rfl⟩
    refine ⟨x, _, by rw [ht]; simp [hx.mem], u, y, v, q, ht, hp, hres, hx, hans, ?_⟩
    intro a₁ hr₁ hhas
    obtain rfl := hr₁.state_unique (fun _ _ _ _ h h' => Option.some.inj (h.symm.trans h')) hr
    obtain ⟨ret, seen, len', fd', he⟩ := hres
    rw [he] at hst
    obtain ⟨req, hreq, hans'⟩ := answers_of_hasRequestRandom (run_sound hr) (run_framesOk hr) hhas hst
    rwa [Option.some.inj (hf.request.symm.trans hreq)]

def answerPacket : Packet := ⟨5, some 1, answerFrame, .bytes []⟩

end GlobalServer.Zone
