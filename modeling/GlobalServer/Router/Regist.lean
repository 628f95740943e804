import Mathlib.Data.Nat.Basic
import Mathlib.Tactic.Linarith

/-!
# Registration at a transfersvr or a routersvr

`SendRegistCmd` sends its request until it is answered with the code 0. A
negative answer is followed by a wait of a second, and so is, within the
sending, a request that nobody answers. A request that cannot be sent is
followed by the next one at once.
-/

namespace GlobalServer

/-- What `SendMsgTo…ByFd` comes to once the request has been sent. -/
inductive Response where
  | timeout
  | error
  | unparsable
  | code (code : Int)
  deriving DecidableEq

/-- `SendRegistCmd` between two turns of its loop, with the requests it has tried to send and the times it has
yielded. -/
structure SendRegistCmd where
  retryType : Int
  sends : Nat
  yields : Nat
  done : Bool
  deriving DecidableEq

namespace SendRegistCmd

def init : SendRegistCmd := { retryType := 0, sends := 0, yields := 0, done := false }

/-- A turn of the loop; `sendRet` is what the sending of a request returns and `response` what comes of it. -/
def turn (sendRet : Int) (response : Response) (s : SendRegistCmd) : SendRegistCmd :=
  if s.done then s
  else if s.retryType = 0 then
    if sendRet ≠ 0 then { s with sends := s.sends + 1, retryType := -2 }
    else
      -- the `Wait` for the response
      let s := { s with sends := s.sends + 1, yields := s.yields + 1 }
      match response with
      | .timeout => { s with retryType := -2 }
      | .error => { s with retryType := -2 }
      | .unparsable => { s with retryType := -2 }
      | .code code => if code = 0 then { s with done := true } else { s with retryType := -1 }
  else if s.retryType = -1 then { s with retryType := 0, yields := s.yields + 1 }
  else { s with retryType := 0 }

/-- The loop after some turns, by what comes of each request. -/
def loop (sendRets : Nat → Int) (responses : Nat → Response) : Nat → SendRegistCmd
  | 0 => init
  | n + 1 =>
    let s := loop sendRets responses n
    turn (sendRets s.sends) (responses s.sends) s

/-- From any turn on, the loop ends or yields after finitely many turns. -/
def Yields (s : Nat → SendRegistCmd) : Prop := ∀ n, ∃ k, (s (n + k)).done = true ∨ (s n).yields < (s (n + k)).yields

/-- What a turn does. -/
inductive Turned (sendRet : Int) (response : Response) (s : SendRegistCmd) : SendRegistCmd → Prop
  | finished (h : s.done = true) : Turned sendRet response s s
  | unsent (h : s.done = false) (h0 : s.retryType = 0) (hs : sendRet ≠ 0) :
      Turned sendRet response s { s with sends := s.sends + 1, retryType := -2 }
  | unanswered {t : Int} (h : s.done = false) (h0 : s.retryType = 0) (hs : sendRet = 0) (hr : response ≠ .code 0)
      (ht : t ≠ 0) :
      Turned sendRet response s { s with sends := s.sends + 1, yields := s.yields + 1, retryType := t }
  | answered (h : s.done = false) (h0 : s.retryType = 0) (hs : sendRet = 0) (hr : response = .code 0) :
      Turned sendRet response s { s with sends := s.sends + 1, yields := s.yields + 1, done := true }
  | waited (h : s.done = false) (h1 : s.retryType = -1) : Turned sendRet response s { s with retryType := 0, yields := s.yields + 1 }
  | again (h : s.done = false) (h0 : s.retryType ≠ 0) (h1 : s.retryType ≠ -1) :
      Turned sendRet response s { s with retryType := 0 }

theorem turn_turned (sendRet : Int) (response : Response) (s : SendRegistCmd) :
    Turned sendRet response s (turn sendRet response s) := by
  unfold turn
  by_cases h : s.done = true
  · simpa [h] using .finished h
  · have hf : s.done = false := by simpa using h
    rw [if_neg h]
    by_cases h0 : s.retryType = 0
    · rw [if_pos h0]
      by_cases hs : sendRet = 0
      · rw [if_neg (by simpa using hs)]
        cases response with
        | timeout => exact .unanswered hf h0 hs (by simp) (by decide)
        | error => exact .unanswered hf h0 hs (by simp) (by decide)
        | unparsable => exact .unanswered hf h0 hs (by simp) (by decide)
        | code code =>
          by_cases hc : code = 0
          · subst hc
            exact .answered hf h0 hs rfl
          · simp only [hc, if_false]
            exact .unanswered hf h0 hs (by simpa using hc) (by decide)
      · rw [if_pos hs]
        exact .unsent hf h0 hs
    · rw [if_neg h0]
      by_cases h1 : s.retryType = -1
      · rw [if_pos h1]
        exact .waited hf h1
      · rw [if_neg h1]
        exact .again hf h0 h1

section
variable {sendRets : Nat → Int} {responses : Nat → Response}

theorem loop_turned (sendRets : Nat → Int) (responses : Nat → Response) (n : Nat) :
    Turned (sendRets (loop sendRets responses n).sends) (responses (loop sendRets responses n).sends)
      (loop sendRets responses n) (loop sendRets responses (n + 1)) := turn_turned _ _ _

/-- While the loop goes on, none of the requests so far has been answered with the code 0, and every other turn
sends one. -/
theorem loop_going (n : Nat) (h : (loop sendRets responses n).done = false) :
    (∀ i < (loop sendRets responses n).sends, ¬ (sendRets i = 0 ∧ responses i = .code 0)) ∧
      n + (if (loop sendRets responses n).retryType = 0 then 0 else 1) ≤ 2 * (loop sendRets responses n).sends := by
  induction n with
  | zero => simp [loop, init]
  | succ n ih =>
    have ht := loop_turned sendRets responses n
    revert h ih ht
    generalize loop sendRets responses n = s
    generalize loop sendRets responses (n + 1) = s'
    intro ih h ht
    cases ht with
    | finished hd => simp [hd] at h
    | unsent hd h0 hs =>
      obtain ⟨hi, hn⟩ := ih hd
      rw [if_pos h0] at hn
      refine ⟨fun i hlt hc => ?_, by simp; omega⟩
      rcases Nat.lt_succ_iff_lt_or_eq.mp hlt with hlt | rfl
      · exact hi i hlt hc
      · exact hs hc.1
    | unanswered hd h0 hs hr ht =>
      obtain ⟨hi, hn⟩ := ih hd
      rw [if_pos h0] at hn
      refine ⟨fun i hlt hc => ?_, by simp [ht]; omega⟩
      rcases Nat.lt_succ_iff_lt_or_eq.mp hlt with hlt | rfl
      · exact hi i hlt hc
      · exact hr hc.2
    | answered => simp at h
    | waited hd h1 =>
      obtain ⟨hi, hn⟩ := ih hd
      rw [if_neg (by simp [h1])] at hn
      exact ⟨hi, by simpa using hn⟩
    | again hd h0 h1 =>
      obtain ⟨hi, hn⟩ := ih hd
      rw [if_neg h0] at hn
      exact ⟨hi, by simpa using hn⟩

theorem Turned.yields_le {sendRet : Int} {response : Response} {s s' : SendRegistCmd}
    (h : Turned sendRet response s s') :
    s.yields ≤ s'.yields := by
  cases h <;> simp

theorem loop_yields_le (n : Nat) : ∀ k, (loop sendRets responses n).yields ≤ (loop sendRets responses (n + k)).yields
  | 0 => Nat.le_refl _
  | k + 1 => Nat.le_trans (loop_yields_le n k) (loop_turned sendRets responses (n + k)).yields_le

theorem Turned.quiet {sendRet : Int} {response : Response} {s s' : SendRegistCmd} (h : Turned sendRet response s s')
    (hd : s'.done = false) (hy : s'.yields ≤ s.yields) :
    (s.retryType = 0 ∧ sendRet ≠ 0 ∧ s' = { s with sends := s.sends + 1, retryType := -2 }) ∨
      (s.retryType ≠ 0 ∧ s' = { s with retryType := 0 }) := by
  cases h with
  | finished h => simp [h] at hd
  | unsent h h0 hs => exact Or.inl ⟨h0, hs, rfl⟩
  | unanswered => simp at hy
  | answered => simp at hy
  | waited => simp at hy
  | again h h0 h1 => exact Or.inr ⟨h0, rfl⟩

/-- When the loop goes on from some turn without yielding, no request can be sent from there on. -/
theorem unsent_of_quiet {n : Nat} (h : ∀ k, (loop sendRets responses (n + k)).done = false ∧
    (loop sendRets responses (n + k)).yields ≤ (loop sendRets responses n).yields) :
    ∀ d, sendRets ((loop sendRets responses n).sends + d) ≠ 0 := by
  have quiet : ∀ k, _ := fun k => (loop_turned sendRets responses (n + k)).quiet (h (k + 1)).1
    (Nat.le_trans (h (k + 1)).2 (loop_yields_le n k))
  have reach : ∀ d, ∃ k, (loop sendRets responses (n + k)).retryType = 0 ∧
      (loop sendRets responses (n + k)).sends = (loop sendRets responses n).sends + d := by
    intro d
    induction d with
    | zero =>
      by_cases h0 : (loop sendRets responses n).retryType = 0
      · exact ⟨0, h0, rfl⟩
      · rcases quiet 0 with ⟨h0', -⟩ | ⟨-, he⟩
        · exact absurd h0' h0
        · rw [Nat.add_zero] at he
          exact ⟨1, by rw [he], by rw [he]; rfl⟩
    | succ d ih =>
      obtain ⟨k, h0, hs⟩ := ih
      rcases quiet k with ⟨-, -, he⟩ | ⟨h0', -⟩
      · rcases quiet (k + 1) with ⟨h0', -⟩ | ⟨-, he'⟩
        · rw [← Nat.add_assoc, he] at h0'
          cases h0'
        · refine ⟨k + 2, ?_, ?_⟩
          · rw [show n + (k + 2) = n + (k + 1) + 1 from rfl, he']
          · rw [show n + (k + 2) = n + (k + 1) + 1 from rfl, he', ← Nat.add_assoc n k 1, he]
            simp only [hs]
            omega
      · exact absurd h0 h0'
  intro d
  obtain ⟨k, h0, hs⟩ := reach d
  rcases quiet k with ⟨-, hr, -⟩ | ⟨h0', -⟩
  · rwa [hs] at hr
  · exact absurd h0 h0'

theorem loop_not_done (h : ∀ i, ¬ (sendRets i = 0 ∧ responses i = .code 0)) :
    ∀ n, (loop sendRets responses n).done = false
  | 0 => rfl
  | n + 1 => by
    have ih := loop_not_done h n
    have ht := loop_turned sendRets responses n
    revert ih ht
    generalize loop sendRets responses n = s
    generalize loop sendRets responses (n + 1) = s'
    intro ih ht
    cases ht with
    | finished hd => exact ih
    | unsent => exact ih
    | unanswered => exact ih
    | answered hd h0 hs hr => exact absurd ⟨hs, hr⟩ (h _)
    | waited => exact ih
    | again => exact ih

theorem Turned.spins {response : Response} {s s' : SendRegistCmd} {m : Nat}
    (h : Turned (sendRets s.sends) response s s')
    (hd : s.done = false) (hm : ∀ i, m ≤ i → sendRets i ≠ 0) (hs : m ≤ s.sends) :
    s'.retryType ≠ -1 ∧ m ≤ s'.sends ∧ (s.retryType ≠ -1 → s'.yields ≤ s.yields) := by
  cases h with
  | finished h => simp [h] at hd
  | unsent => exact ⟨by simp, by simp; omega, by simp⟩
  | unanswered hd h0 hz => exact absurd hz (hm _ hs)
  | answered hd h0 hz => exact absurd hz (hm _ hs)
  | waited hd h1 => exact ⟨by simp, hs, fun h => absurd h1 h⟩
  | again => exact ⟨by simp, hs, by simp⟩

theorem loop_spins {m : Nat} (hcode : ∀ i, ¬ (sendRets i = 0 ∧ responses i = .code 0))
    (hm : ∀ i, m ≤ i → sendRets i ≠ 0) :
    ∀ k, (loop sendRets responses (2 * m + 1 + k)).yields ≤ (loop sendRets responses (2 * m + 1)).yields := by
  have next : ∀ n, m ≤ (loop sendRets responses n).sends → _ := fun n hs =>
    (loop_turned sendRets responses n).spins (loop_not_done hcode n) hm hs
  have hfirst : m ≤ (loop sendRets responses (2 * m)).sends := by
    have := (loop_going _ (loop_not_done hcode (2 * m))).2
    omega
  have spins : ∀ k, (loop sendRets responses (2 * m + 1 + k)).retryType ≠ -1 ∧
      m ≤ (loop sendRets responses (2 * m + 1 + k)).sends ∧
      (loop sendRets responses (2 * m + 1 + k)).yields ≤ (loop sendRets responses (2 * m + 1)).yields := by
    intro k
    induction k with
    | zero =>
      obtain ⟨h1, hs, -⟩ := next (2 * m) hfirst
      exact ⟨h1, hs, Nat.le_refl _⟩
    | succ k ih =>
      obtain ⟨h1, hs, hy⟩ := ih
      obtain ⟨h1', hs', hy'⟩ := next _ hs
      exact ⟨h1', hs', Nat.le_trans (hy' h1) hy⟩
  exact fun k => (spins k).2.2

theorem loop_yields_iff : Yields (loop sendRets responses) ↔
    (∃ i, sendRets i = 0 ∧ responses i = .code 0) ∨ ∀ m, ∃ i, m ≤ i ∧ sendRets i = 0 := by
  constructor
  · intro h
    by_contra hno
    obtain ⟨hcode, hm⟩ := not_or.mp hno
    push Not at hm
    obtain ⟨m, hm⟩ := hm
    have hcode' : ∀ i, ¬ (sendRets i = 0 ∧ responses i = .code 0) := fun i hi => hcode ⟨i, hi⟩
    obtain ⟨k, hd | hy⟩ := h (2 * m + 1)
    · rw [loop_not_done hcode'] at hd
      cases hd
    · exact absurd hy (Nat.not_lt.mpr (loop_spins hcode' hm k))
  · intro h
    by_contra hno
    unfold Yields at hno
    push Not at hno
    obtain ⟨n, hn⟩ := hno
    have hquiet := unsent_of_quiet fun k => ⟨by simpa using (hn k).1, (hn k).2⟩
    have unsent : ∀ i, (loop sendRets responses n).sends ≤ i → sendRets i ≠ 0 := by
      intro i hi
      obtain ⟨d, rfl⟩ := Nat.exists_eq_add_of_le hi
      exact hquiet d
    rcases h with ⟨i, hs, hr⟩ | h
    · by_cases hi : i < (loop sendRets responses n).sends
      · have hd : (loop sendRets responses n).done = false := by simpa using (hn 0).1
        exact (loop_going n hd).1 i hi ⟨hs, hr⟩
      · exact unsent i (Nat.not_lt.mp hi) hs
    · obtain ⟨i, hi, hs⟩ := h (loop sendRets responses n).sends
      exact unsent i hi hs

end

end SendRegistCmd

namespace Routersvr

/-- `SendRegistCmd` of the routersvr, by the returns of `TransferMgr::SendMsgToTransferByFd` -/
def sendRegistCmd (sendMsgToTransferByFd : Nat → Int) (responses : Nat → Response) : Nat → SendRegistCmd :=
  SendRegistCmd.loop sendMsgToTransferByFd responses

end Routersvr

namespace Connsvr

/-- `SendRegistCmd` of the connsvr, by the returns of `RouterMgr::SendMsgByFd` -/
def sendRegistCmd (sendMsgByFd : Nat → Int) (responses : Nat → Response) : Nat → SendRegistCmd :=
  SendRegistCmd.loop sendMsgByFd responses

end Connsvr

namespace SendRegistCmd

/-- Of either loop: it never goes on for ever without a yield if and only if a request is answered with the code
0 or there is always one more that can be sent. -/
theorem regist_yields (sendRets : Nat → Int) (responses : Nat → Response) :
    (Yields (Routersvr.sendRegistCmd sendRets responses) ↔
      (∃ i, sendRets i = 0 ∧ responses i = .code 0) ∨ ∀ m, ∃ i, m ≤ i ∧ sendRets i = 0) ∧
    (Yields (Connsvr.sendRegistCmd sendRets responses) ↔
      (∃ i, sendRets i = 0 ∧ responses i = .code 0) ∨ ∀ m, ∃ i, m ≤ i ∧ sendRets i = 0) :=
  ⟨loop_yields_iff, loop_yields_iff⟩

/-- On a closed connection no request can be sent, and the loop never yields. -/
theorem regist_spins : ¬ Yields (Routersvr.sendRegistCmd (fun _ => -1) fun _ => .timeout) ∧
    ¬ Yields (Connsvr.sendRegistCmd (fun _ => -1) fun _ => .timeout) := by
  have spins : ¬ Yields (loop (fun _ => -1) fun _ => .timeout) := by
    intro h
    rcases loop_yields_iff.mp h with ⟨i, hi, -⟩ | h
    · cases hi
    · obtain ⟨i, -, hi⟩ := h 0
      cases hi
  exact ⟨spins, spins⟩

end SendRegistCmd

end GlobalServer
